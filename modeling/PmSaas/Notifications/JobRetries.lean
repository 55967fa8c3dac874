import PmSaas.Lib.Retry
import PmSaas.Notifications.NotificationsService

/-!
# A notification job over its attempts

`enqueue` asks for three attempts, and an attempt starts `process` from the beginning: the row
first, then the recipient's preference, then the e-mail.

* `Attempt.process_eq`: an attempt whose calls all go through does what `process` does;
* `mails_le_one`: there is one e-mail at most, since nothing after it throws;
* `one_notification_iff`: there is one row at most exactly when no attempt that stored one is
  followed by another that does.
-/

namespace PmSaas

open NotificationsProcessor

theorem Db.createNotification_ok {row : Notification} {db : Db} {result : Unit × Db}
    (h : db.createNotification row = .ok result) : result = ((), db.insertNotification row) := by
  unfold Db.createNotification at h
  split_ifs at h
  cases h
  rfl

/-- `attempts: 3`. -/
def NotificationsService.attempts : ℕ := 3

/-- How a call of an attempt ends. -/
inductive CallEnd where
  | answered
  /-- The call fails before it has any effect. -/
  | failed (e : Exn)
  /-- The call has its effect, but the answer does not arrive. -/
  | lost (e : Exn)
  deriving DecidableEq

/-- One attempt of a job: what it draws, the database at each of its two queries, and how each call
ends. -/
structure Attempt where
  gen : Gen
  dbAtCreate : Db
  create : CallEnd
  dbAtRead : Db
  read : CallEnd
  sendMail : CallEnd

/-- What attempts leave behind: the rows they create and the mail they hand to the transport. -/
structure JobEffects where
  rows : List Notification
  mails : List MailMessage

namespace CallEnd

/-- Whether the call has its effect. -/
def Reaches : CallEnd → Prop
  | failed _ => False
  | _ => True

instance : DecidablePred Reaches
  | answered => isTrue trivial
  | failed _ => isFalse id
  | lost _ => isTrue trivial

/-- The exception of a call that would otherwise end in `answer`. -/
def reply {α : Type} (c : CallEnd) (answer : Except Exn α) : Except Exn α :=
  match c with
  | answered => answer
  | failed e => .error e
  | lost e => .error e

end CallEnd

namespace Attempt

variable (job : NotificationJob) (a : Attempt)

/-- `notification.create` at the time of the attempt. -/
def createNotification : Except Exn (Unit × Db) :=
  a.dbAtCreate.createNotification (newNotification job a.gen)

/-- The row is inserted. -/
def Stores : Prop := a.create.Reaches ∧ (a.createNotification job).isOk = true

instance : Decidable (a.Stores job) := inferInstanceAs (Decidable (_ ∧ _))

/-- `MailService.send` catches what `transporter.sendMail` throws. -/
def send (msg : MailMessage) : List MailMessage × Except Exn Unit :=
  match a.sendMail.reply (.ok ()) with
  | .ok () => ([msg], .ok ())
  | .error _ => ([msg], .ok ())

/-- The e-mail of `process`, after the row. -/
def notify : List MailMessage × Except Exn Unit :=
  match pref job.type with
  | none => ([], .ok ())
  | some pref =>
      match a.read.reply (.ok (a.dbAtRead.users.find? (·.id == job.recipientId))) with
      | .error e => ([], .error e)
      | .ok user =>
          match user.filter pref with
          | none => ([], .ok ())
          | some user => a.send (mail user job.type job.payload)

/-- One run of `process`: what it leaves behind, and what it throws. -/
def process : JobEffects × Except Exn Unit :=
  let rows := if a.Stores job then [newNotification job a.gen] else []
  match a.create.reply (a.createNotification job) with
  | .error e => (⟨rows, []⟩, .error e)
  | .ok _ => (⟨rows, (a.notify job).1⟩, (a.notify job).2)

def rows : List Notification := (a.process job).1.rows

def mails : List MailMessage := (a.process job).1.mails

/-- `process` throws, so the job is tried again. -/
def Throws : Prop := (a.process job).2.isOk = false

instance : DecidablePred (Throws job) := fun a =>
  inferInstanceAs (Decidable ((a.process job).2.isOk = false))

/-- The row cannot be written, or its answer is lost, or the recipient of an e-mail cannot be
read. -/
def Fails : Prop :=
  a.create ≠ .answered ∨ (a.createNotification job).isOk = false ∨
    (pref job.type).isSome = true ∧ a.read ≠ .answered

instance : Decidable (a.Fails job) := inferInstanceAs (Decidable (_ ∨ _ ∨ _ ∧ _))

/-! ### What one attempt does -/

/-- The row comes first, so the attempt stores it however it ends. -/
theorem rows_eq : a.rows job = if a.Stores job then [newNotification job a.gen] else [] := by
  unfold rows process
  cases a.create.reply (a.createNotification job) <;> rfl

theorem rows_ne_nil : a.rows job ≠ [] ↔ a.Stores job := by
  rw [rows_eq]
  split <;> simp [*]

/-- No failure of the transport reaches the job. -/
theorem send_eq (msg : MailMessage) : a.send msg = ([msg], .ok ()) := by
  unfold send
  cases a.sendMail.reply (.ok ()) <;> rfl

/-- What follows the row throws when there is a recipient to read and the read fails. -/
theorem notify_throws :
    (a.notify job).2.isOk = false ↔ (pref job.type).isSome = true ∧ a.read ≠ .answered := by
  unfold notify
  cases pref job.type with
  | none => simp [Except.isOk, Except.toBool]
  | some pref =>
      cases a.read with
      | answered =>
          simp only [CallEnd.reply]
          cases Option.filter pref _ with
          | none => simp [Except.isOk, Except.toBool]
          | some user => simp [send_eq, Except.isOk, Except.toBool]
      | failed e => simp [CallEnd.reply, Except.isOk, Except.toBool]
      | lost e => simp [CallEnd.reply, Except.isOk, Except.toBool]

/-- **When an attempt throws**, read off its calls. -/
theorem throws_iff : a.Throws job ↔ a.Fails job := by
  unfold Throws Fails process
  rw [← notify_throws]
  cases a.create with
  | answered =>
      cases hdb : a.createNotification job with
      | error e => simp [CallEnd.reply, Except.isOk, Except.toBool]
      | ok result => simp [CallEnd.reply, Except.isOk, Except.toBool]
  | failed e => simp [CallEnd.reply, Except.isOk, Except.toBool]
  | lost e => simp [CallEnd.reply, Except.isOk, Except.toBool]

/-- There is no e-mail, or there is one and nothing throws after it. -/
theorem notify_cases :
    (a.notify job).1 = [] ∨ ∃ msg, a.notify job = ([msg], .ok ()) := by
  unfold notify
  cases pref job.type with
  | none => exact .inl rfl
  | some pref =>
      dsimp only
      cases a.read.reply (.ok (a.dbAtRead.users.find? (·.id == job.recipientId))) with
      | error e => exact .inl rfl
      | ok user =>
          dsimp only
          cases user.filter pref with
          | none => exact .inl rfl
          | some user => exact .inr ⟨_, a.send_eq _⟩

/-- **An attempt that hands over an e-mail is the last one.** -/
theorem mails_last (h : a.mails job ≠ []) : ¬a.Throws job ∧ (a.mails job).length = 1 := by
  revert h
  unfold mails Throws process
  cases a.create.reply (a.createNotification job) with
  | error e => exact fun h => absurd rfl h
  | ok result =>
      intro h
      obtain hnil | ⟨msg, hmsg⟩ := a.notify_cases job
      · exact absurd hnil h
      · dsimp only
        rw [hmsg]
        exact ⟨nofun, rfl⟩

/-- An attempt that nothing disturbs is a run of the processor. -/
theorem process_eq (g : Gen) (w : World) (sendMail : CallEnd) :
    let a : Attempt := ⟨g, w.db, .answered, w.db.insertNotification (newNotification job g),
      .answered, sendMail⟩
    NotificationsProcessor.process job g w = ((a.process job).2,
      { w with
        db := (a.rows job).foldl (fun db row => db.insertNotification row) w.db
        outbox := w.outbox ++ a.mails job }) := by
  intro a
  have hcreate : a.createNotification job = w.db.createNotification (newNotification job g) := rfl
  have hstores : a.Stores job ↔ (a.createNotification job).isOk = true := by
    simp [Stores, CallEnd.Reaches, a]
  rw [rows_eq, mails, Attempt.process, NotificationsProcessor.process, Service.exec_bind]
  simp only [hstores, hcreate]
  cases hdb : w.db.createNotification (newNotification job g) with
  | error e => simp [CallEnd.reply, a, Except.isOk, Except.toBool]
  | ok result =>
      have hresult := Db.createNotification_ok hdb
      simp only [hresult, CallEnd.reply, a, Except.isOk, Except.toBool, if_true, notify]
      cases pref job.type with
      | none => simp
      | some pref =>
          simp only [Service.query_bind]
          cases Option.filter pref _ with
          | none => simp
          | some user => simp [send_eq, PmSaas.sendMail, World.mailed]

end Attempt

/-! ### All attempts -/

section Job

variable (job : NotificationJob) (tape : ℕ → Attempt)

/-- The attempts that are made of a job. -/
def NotificationJob.attempts : List Attempt :=
  Retry.made (Attempt.Throws job) NotificationsService.attempts tape

/-- The rows that are created for the job. -/
def NotificationJob.rows : List Notification := (job.attempts tape).flatMap (Attempt.rows job)

/-- The e-mails that are handed to the transport for the job. -/
def NotificationJob.mails : List MailMessage := (job.attempts tape).flatMap (Attempt.mails job)

/-- There is one e-mail at most. -/
theorem mails_le_one : (job.mails tape).length ≤ 1 := by
  refine (Retry.flatMap_made _ (fun a => ?_) _ _).2 ?_
  · by_cases hnil : a.mails job = []
    · simp [hnil]
    · exact (a.mails_last job hnil).2.le
  · rintro ⟨i, j, hij, -, hmail, -, hthrows⟩
    exact ((tape i).mails_last job hmail).1 (hthrows i hij)

/-- **One row and one e-mail.**  Whatever fails in the attempts of a job, it leaves one row at most
and hands over one e-mail at most, exactly when no attempt that stores its row is followed by
another one that does: the second one is made because all the attempts before it failed, the first
one after its row. -/
theorem one_notification_iff :
    ((job.rows tape).length ≤ 1 ∧ (job.mails tape).length ≤ 1) ↔
      ¬∃ i j, i < j ∧ j < NotificationsService.attempts ∧ (tape i).Stores job ∧
        (tape j).Stores job ∧ ∀ k < j, (tape k).Fails job := by
  have hone : ∀ a : Attempt, (a.rows job).length ≤ 1 := by
    intro a
    rw [Attempt.rows_eq]
    split <;> simp
  rw [and_iff_left (mails_le_one job tape), NotificationJob.rows, NotificationJob.attempts,
    Retry.flatMap_made _ hone]
  simp only [Attempt.rows_ne_nil, Attempt.throws_iff]

end Job

/-! ### A connection that is lost after the insert -/

namespace JobRetries.Samples

open Demo (firstId secondId)

def job : NotificationJob where
  organizationId := Demo.orgId.val
  recipientId := Demo.userId.val
  actorId := none
  type := .ISSUE_ASSIGNED
  payload := [("title", .str (js "Task"))]

def supply (k : ℕ) : Gen := ⟨0, fun _ => if k = 0 then firstId else secondId, fun _ => []⟩

/-- The database before the attempt: the first one has left its row. -/
def dbBefore (k : ℕ) : Db :=
  if k = 0 then Demo.world.db else Demo.world.db.insertNotification (newNotification job (supply 0))

/-- The first attempt cannot read the recipient, the others can. -/
def tape (k : ℕ) : Attempt where
  gen := supply k
  dbAtCreate := dbBefore k
  create := .answered
  dbAtRead := (dbBefore k).insertNotification (newNotification job (supply k))
  read := if k = 0 then .failed (.error (js "connection lost")) else .answered
  sendMail := .answered

end JobRetries.Samples

open JobRetries.Samples in
/-- The retry writes the row a second time. -/
theorem retried_row_twice :
    ¬∀ (job : NotificationJob) (tape : ℕ → Attempt),
      (job.rows tape).length ≤ 1 ∧ (job.mails tape).length ≤ 1 := by
  intro hall
  exact absurd (hall job tape).1 (by decide)

end PmSaas
