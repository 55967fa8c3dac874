import PmSaas.Common.Service
import PmSaas.Lib.Pagination
import PmSaas.Lib.Table
import PmSaas.Types.Schemas

/-!
# `notifications.service.ts` and `notifications.processor.ts`

Services enqueue jobs (`enqueue`); the processor writes the in-app row of a job and then sends an
e-mail if the recipient's preference allows it.
-/

namespace PmSaas

open Pagination Table

/-! ### The Prisma calls -/

def Db.rewriteNotifications (p : Notification → Bool) (now : Date) (db : Db) : Db :=
  { db with
    notifications := updateWhere p (fun n => { n with readAt := some now }) db.notifications }

/-- `notification.updateMany({ where, data: { readAt } })` with the number of rows. -/
def Db.markNotifications (p : Notification → Bool) (now : Date) (db : Db) :
    Except Exn (ℕ × Db) :=
  .ok ((db.notifications.filter p).length, db.rewriteNotifications p now)

def Db.insertNotification (row : Notification) (db : Db) : Db :=
  { db with notifications := db.notifications ++ [row] }

/-- `notification.create`. -/
def Db.createNotification (row : Notification) (db : Db) : Except Exn (Unit × Db) :=
  if db.notifications.any (·.id == row.id) then .error (.prisma .uniqueConstraint)
  else if !db.organizations.any (·.id == row.organizationId) ||
      !db.users.any (·.id == row.userId) then
    .error (.prisma .foreignKey)
  else .ok ((), db.insertNotification row)

/-- The preference columns of `data: prefs`; an absent field keeps its value. -/
def NotificationPrefsInput.apply (prefs : NotificationPrefsInput) (now : Date) (u : User) : User :=
  { u with
    emailOnAssigned := prefs.emailOnAssigned.getD u.emailOnAssigned
    emailOnMentioned := prefs.emailOnMentioned.getD u.emailOnMentioned
    emailOnComment := prefs.emailOnComment.getD u.emailOnComment
    updatedAt := now }

def Db.rewriteUser (userId : JsString) (f : User → User) (db : Db) : Db :=
  { db with users := updateWhere (·.id == userId) f db.users }

/-- `user.update({ where: { id }, data: prefs })`. -/
def Db.updatePrefs (userId : JsString) (prefs : NotificationPrefsInput) (now : Date) (db : Db) :
    Except Exn (User × Db) :=
  match db.users.find? (·.id == userId) with
  | none => .error (.prisma .recordNotFound)
  | some u => .ok (prefs.apply now u, db.rewriteUser userId (prefs.apply now))

theorem Db.updatePrefs_ok {userId : JsString} {prefs : NotificationPrefsInput} {now : Date}
    {db db' : Db} {u : User} (h : db.updatePrefs userId prefs now = .ok (u, db')) :
    ∃ users, db' = { db with users := users } := by
  unfold Db.updatePrefs at h
  split at h
  · cases h
  · cases h
    exact ⟨_, rfl⟩

/-! ### The service -/

namespace NotificationsService

/-- `createdAt: 'desc'`. -/
def latestFirst (n : Notification) : OrderDual Date := OrderDual.toDual n.createdAt

/-- `list`: the latest 50, latest first. -/
def list (orderBy : OrderBy latestFirst) (userId : JsString) (unreadOnly : Bool) :
    Service (List Notification) :=
  Service.query fun db =>
    (orderBy.rows (db.notifications.filter fun n =>
      n.userId == userId && (!unreadOnly || n.readAt.isNone))).take 50

def markRead (userId : JsString) (ids : List JsString) (now : Date) : Service ℕ :=
  Service.exec (Db.markNotifications
    (fun n => n.userId == userId && ids.contains n.id && n.readAt.isNone) now)

def markAllRead (userId : JsString) (now : Date) : Service ℕ :=
  Service.exec (Db.markNotifications (fun n => n.userId == userId && n.readAt.isNone) now)

/-- What `PREF_SELECT` selects: `emailOnAssigned`, `emailOnMentioned` and `emailOnComment`. -/
def prefSelect (u : User) : Bool × Bool × Bool :=
  (u.emailOnAssigned, u.emailOnMentioned, u.emailOnComment)

def getPrefs (userId : JsString) : Service (Bool × Bool × Bool) := do
  let user ← Service.query fun db => db.users.find? (·.id == userId)
  let user ← Service.orThrow user (.prisma .recordNotFound)
  pure (prefSelect user)

def updatePrefs (userId : JsString) (prefs : NotificationPrefsInput) (now : Date) : Service User :=
  Service.exec (Db.updatePrefs userId prefs now)

end NotificationsService

/-! ### The processor -/

namespace NotificationsProcessor

/-- The preference that gates the e-mail of a type; `none` sends no e-mail. -/
def pref : NotificationType → Option (User → Bool)
  | .ISSUE_ASSIGNED => some User.emailOnAssigned
  | .MENTIONED => some User.emailOnMentioned
  | .COMMENT_CREATED => some User.emailOnComment
  | .ISSUE_STATUS_CHANGED => none
  | .INVITED => none

def subject : NotificationType → JsString
  | .ISSUE_ASSIGNED => js "You were assigned an issue"
  | .MENTIONED => js "You were mentioned"
  | .COMMENT_CREATED => js "New comment on an issue you follow"
  | .ISSUE_STATUS_CHANGED => js "An issue status changed"
  | .INVITED => js "You were invited to a workspace"

/-- `(payload.title as string | undefined) ?? 'an issue'`; a title is only ever a string. -/
def title (payload : JsonObject) : JsString :=
  match payload.lookup "title" with
  | some (.str text) => text
  | _ => js "an issue"

def mail (user : User) (type : NotificationType) (payload : JsonObject) : MailMessage where
  recipient := user.email
  subject := subject type
  text := js "Hi " ++ user.name ++ js ",\n\n" ++ subject type ++ js ": \"" ++ title payload ++
    js "\".\n\nOpen PM SaaS to view it."

/-- The in-app row of a job. -/
def newNotification (job : NotificationJob) (g : Gen) : Notification where
  id := (g.cuid 0).val
  organizationId := job.organizationId
  userId := job.recipientId
  type := job.type
  payload := job.payload
  readAt := none
  createdAt := g.now

def process (job : NotificationJob) (g : Gen) : Service Unit := do
  Service.exec (Db.createNotification (newNotification job g))
  match pref job.type with
  | none => pure ()
  | some pref => do
      let user ← Service.query fun db => db.users.find? (·.id == job.recipientId)
      match user.filter pref with
      | none => pure ()
      | some user => sendMail (mail user job.type job.payload)

/-- `process` throws and changes nothing, or inserts the row and perhaps mails. -/
theorem process_cases (job : NotificationJob) (g : Gen) (w : World) :
    (process job g w).2 = w ∨
    Aftermath job.organizationId
      { w with db := w.db.insertNotification (newNotification job g) } (process job g w).2 := by
  unfold process
  rw [Service.exec_bind]
  unfold Db.createNotification
  split_ifs with huniq hfk
  · exact .inl rfl
  · exact .inl rfl
  · right
    dsimp only
    cases pref job.type with
    | none => exact .refl ..
    | some pref =>
        dsimp only
        rw [Service.query_bind]
        generalize Option.filter pref _ = user
        cases user with
        | none => exact .refl ..
        | some user => exact .mailed (.refl ..) _

/-- What `process` leaves in the database. -/
theorem process_db (job : NotificationJob) (g : Gen) (w : World) :
    (process job g w).2.db =
      match w.db.createNotification (newNotification job g) with
      | .ok (_, db) => db
      | .error _ => w.db := by
  rw [process, Service.exec_bind]
  cases w.db.createNotification (newNotification job g) with
  | error e => rfl
  | ok r =>
      dsimp only
      cases pref job.type with
      | none => rfl
      | some pref =>
          dsimp only
          rw [Service.query_bind]
          generalize Option.filter pref _ = user
          cases user <;> rfl

end NotificationsProcessor

end PmSaas
