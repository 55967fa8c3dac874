import PmSaas.Common.StorageService
import PmSaas.Issues.IssuesService

/-!
# `attachments.service.ts`: files of an issue

Every method first finds the issue inside the tenant.  `confirm` then checks that the reported key
lies under the prefix of tenant and issue, so that `remove`, which deletes the object under the
stored key, stays in the tenant's part of the bucket.
-/

namespace PmSaas

open JsString SortBy Table

/-- An attachment with its uploader and a download URL. -/
structure AttachmentView where
  attachment : Attachment
  uploader : Option UserBrief
  downloadUrl : DownloadUrl
  deriving DecidableEq, Repr

/-! ### The Prisma calls -/

def Db.insertAttachment (row : Attachment) (db : Db) : Db :=
  { db with attachments := db.attachments ++ [row] }

/-- `attachment.create`. -/
def Db.createAttachment (row : Attachment) (db : Db) : Except Exn (Attachment × Db) :=
  if db.attachments.any (·.id == row.id) then .error (.prisma .uniqueConstraint)
  else if !db.issues.any (·.id == row.issueId) || !db.users.any (·.id == row.uploaderId) then
    .error (.prisma .foreignKey)
  else .ok (row, db.insertAttachment row)

/-- `attachment.findFirst({ where: { id, issueId } })`. -/
def Db.findAttachment (issueId attachmentId : JsString) (db : Db) : Option Attachment :=
  db.attachments.find? fun a => a.id == attachmentId && a.issueId == issueId

def Db.dropAttachment (id : JsString) (db : Db) : Db :=
  { db with attachments := deleteWhere (·.id == id) db.attachments }

/-- `attachment.delete({ where: { id } })`. -/
def Db.deleteAttachment (id : JsString) (db : Db) : Except Exn (Unit × Db) :=
  if db.attachments.any (·.id == id) then .ok ((), db.dropAttachment id)
  else .error (.prisma .recordNotFound)

theorem Db.createAttachment_ok {row a : Attachment} {db db' : Db}
    (h : db.createAttachment row = .ok (a, db')) :
    a = row ∧ db' = db.insertAttachment row ∧ ∀ b ∈ db.attachments, b.id ≠ row.id := by
  unfold Db.createAttachment at h
  split at h
  · cases h
  · rename_i huniq
    split at h
    · cases h
    · cases h
      exact ⟨rfl, rfl, by simpa using huniq⟩

theorem Db.findAttachment_some {issueId attachmentId : JsString} {db : Db} {a : Attachment}
    (h : db.findAttachment issueId attachmentId = some a) :
    a ∈ db.attachments ∧ a.id = attachmentId ∧ a.issueId = issueId := by
  have hp := List.find?_some h
  simp only [Bool.and_eq_true, beq_iff_eq] at hp
  exact ⟨List.mem_of_find?_eq_some h, hp.1, hp.2⟩

/-! ### The service -/

namespace AttachmentsService

/-- Load an issue that must belong to the tenant, or 404. -/
def resolveIssue (organizationId issueId : JsString) : Service Issue := do
  let issue ← Service.query (Db.findIssue organizationId issueId)
  Service.orThrow issue (.notFound (js "Issue not found"))

theorem resolveIssue_bind {β : Type} (organizationId issueId : JsString) (k : Issue → Service β)
    (w : World) :
    (resolveIssue organizationId issueId >>= k) w =
      match w.db.findIssue organizationId issueId with
      | some issue => k issue w
      | none => (.error (.notFound (js "Issue not found")), w) := by
  rw [resolveIssue, Service.bind_assoc, Service.query_bind, Service.orThrow_bind]
  cases w.db.findIssue organizationId issueId <;> rfl

/-- `withUrl`, together with the uploader the queries include. -/
def withUrl (a : Attachment) (db : Db) : AttachmentView where
  attachment := a
  uploader := db.userBrief a.uploaderId
  downloadUrl := StorageService.presignDownload a.fileKey (some a.fileName)

/-- Step 1: a presigned PUT URL, whose key the client reports back on confirm. -/
def presign (organizationId issueId : JsString) (input : PresignAttachmentInput) (g : Gen) :
    Service (UploadUrl × JsString) := do
  let _ ← resolveIssue organizationId issueId
  let fileKey := StorageService.buildKey organizationId issueId input.fileName (g.random 0)
  pure (StorageService.presignUpload fileKey input.contentType, fileKey)

/-- The row `confirm` inserts. -/
def newAttachment (actorId issueId : JsString) (input : ConfirmAttachmentInput) (g : Gen) :
    Attachment where
  id := (g.cuid 0).val
  issueId := issueId
  uploaderId := actorId
  fileName := input.fileName
  fileKey := input.fileKey
  contentType := input.contentType
  size := input.size
  createdAt := g.now

/-- Step 2: persist the row after the upload. -/
def confirm (organizationId actorId issueId : JsString) (input : ConfirmAttachmentInput)
    (g : Gen) : Service AttachmentView := do
  let _ ← resolveIssue organizationId issueId
  Service.throwIf (!startsWith input.fileKey (issuePrefix organizationId issueId))
    (.forbidden (js "File key does not belong to this issue"))
  let attachment ← Service.exec (Db.createAttachment (newAttachment actorId issueId input g))
  record
    { organizationId := organizationId
      actorId := some actorId
      action := "attachment.created"
      entityType := "Attachment"
      entityId := attachment.id
      metadata := some [("issueId", .str issueId), ("fileName", .str input.fileName),
        ("size", .num input.size)] }
    (g.cuid 1) g.now
  Service.query (withUrl attachment)

/-- The attachments of an issue, latest first, each with a download URL. -/
def views (issueId : JsString) (db : Db) : List AttachmentView :=
  (sortBy (fun a : Attachment => OrderDual.toDual a.createdAt)
    (db.attachments.filter (·.issueId == issueId))).map fun a => withUrl a db

def list (organizationId issueId : JsString) : Service (List AttachmentView) := do
  let _ ← resolveIssue organizationId issueId
  Service.query (views issueId)

theorem list_apply (organizationId issueId : JsString) (w : World) :
    list organizationId issueId w =
      match w.db.findIssue organizationId issueId with
      | some _ => (.ok (views issueId w.db), w)
      | none => (.error (.notFound (js "Issue not found")), w) := by
  rw [list, resolveIssue_bind]
  cases w.db.findIssue organizationId issueId <;> rfl

/-- `storageUp` says whether the bucket answers the delete. -/
def remove (storageUp : Bool) (organizationId actorId issueId attachmentId : JsString) (g : Gen) :
    Service Unit := do
  let _ ← resolveIssue organizationId issueId
  let attachment ← Service.query (Db.findAttachment issueId attachmentId)
  let attachment ← Service.orThrow attachment (.notFound (js "Attachment not found"))
  Service.exec (Db.deleteAttachment attachment.id)
  StorageService.delete storageUp attachment.fileKey
  record
    { organizationId := organizationId
      actorId := some actorId
      action := "attachment.deleted"
      entityType := "Attachment"
      entityId := attachment.id
      metadata := some [("issueId", .str issueId)] }
    (g.cuid 0) g.now

/-! ### What each method can do -/

/-- `presign` signs and changes nothing. -/
theorem presign_world (organizationId issueId : JsString) (input : PresignAttachmentInput)
    (g : Gen) (w : World) : (presign organizationId issueId input g w).2 = w := by
  rw [presign, resolveIssue_bind]
  cases w.db.findIssue organizationId issueId <;> rfl

/-- `confirm` throws and changes nothing, or inserts an attachment of an issue of the tenant with a
key under the prefix of both. -/
theorem confirm_cases (organizationId actorId issueId : JsString) (input : ConfirmAttachmentInput)
    (g : Gen) (w : World) :
    (confirm organizationId actorId issueId input g w).2 = w ∨
    ∃ issue db, w.db.findIssue organizationId issueId = some issue ∧
      issuePrefix organizationId issueId <+: input.fileKey ∧
      w.db.createAttachment (newAttachment actorId issueId input g) =
        .ok (newAttachment actorId issueId input g, db) ∧
      Aftermath organizationId { w with db := db }
        (confirm organizationId actorId issueId input g w).2 := by
  rw [confirm, resolveIssue_bind]
  cases hi : w.db.findIssue organizationId issueId with
  | none => exact .inl rfl
  | some issue =>
      simp only [Service.throwIf_bind]
      split
      · exact .inl rfl
      · rename_i hkey
        simp only [Service.exec_bind]
        cases hc : w.db.createAttachment (newAttachment actorId issueId input g) with
        | error e => exact .inl rfl
        | ok r =>
            obtain ⟨hrow, -, -⟩ := Db.createAttachment_ok hc
            simp only [Service.record_bind]
            exact .inr ⟨issue, r.2, rfl, startsWith_iff.1 (by simpa using hkey), by rw [← hrow],
              .recorded ..⟩

/-- `remove` throws and changes nothing, or deletes an attachment of an issue of the tenant and
then perhaps the object under its key. -/
theorem remove_cases (storageUp : Bool) (organizationId actorId issueId attachmentId : JsString)
    (g : Gen) (w : World) :
    (remove storageUp organizationId actorId issueId attachmentId g w).2 = w ∨
    ∃ issue a w', w.db.findIssue organizationId issueId = some issue ∧
      w.db.findAttachment issueId attachmentId = some a ∧
      w' = { w with db := w.db.dropAttachment a.id } ∧
      Aftermath organizationId (if storageUp then StorageService.deleteObject a.fileKey w' else w')
        (remove storageUp organizationId actorId issueId attachmentId g w).2 := by
  rw [remove, resolveIssue_bind]
  cases hi : w.db.findIssue organizationId issueId with
  | none => exact .inl rfl
  | some issue =>
      simp only [Service.query_bind, Service.orThrow_bind]
      cases ha : w.db.findAttachment issueId attachmentId with
      | none => exact .inl rfl
      | some a =>
          have hdel : w.db.deleteAttachment a.id = .ok ((), w.db.dropAttachment a.id) :=
            if_pos (List.any_eq_true.2 ⟨a, (Db.findAttachment_some ha).1, by simp⟩)
          simp only [Service.exec_bind, hdel, StorageService.delete_bind]
          exact .inr ⟨issue, a, _, rfl, rfl, rfl, .recorded ..⟩

end AttachmentsService

end PmSaas
