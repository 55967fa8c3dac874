import PmSaas.Common.Service
import PmSaas.Lib.Table
import PmSaas.Types.Schemas

/-!
# `storage.service.ts`: the object bucket

Clients upload straight to the bucket with a presigned URL, so the API sees the bucket only when it
builds a key, signs a URL or deletes an object.  A presigned URL is what was signed.
-/

namespace PmSaas

open JsString Table

/-- A presigned `PutObjectCommand`. -/
structure UploadUrl where
  key : JsString
  contentType : JsString
  deriving DecidableEq, Repr

/-- A presigned `GetObjectCommand`. -/
structure DownloadUrl where
  key : JsString
  responseContentDisposition : Option JsString
  deriving DecidableEq, Repr

/-- `org/${organizationId}/`, the part of the bucket that is an organization's. -/
def orgPrefix (organizationId : JsString) : JsString := js "org/" ++ organizationId ++ js "/"

/-- `org/${organizationId}/issues/${issueId}/`. -/
def issuePrefix (organizationId issueId : JsString) : JsString :=
  orgPrefix organizationId ++ js "issues/" ++ issueId ++ js "/"

namespace StorageService

/-- `[\w.\-]`. -/
def isSafeUnit (c : CodeUnit) : Bool :=
  (97 ≤ c.val && c.val ≤ 122) || (65 ≤ c.val && c.val ≤ 90) || (48 ≤ c.val && c.val ≤ 57) ||
    c.val == 95 || c.val == 46 || c.val == 45

/-- Namespaced object key; `uuid` is `randomUUID()`. -/
def buildKey (organizationId issueId fileName uuid : JsString) : JsString :=
  let safe := (replaceRuns isSafeUnit 95 false fileName).take 120
  issuePrefix organizationId issueId ++ uuid ++ js "-" ++ safe

def presignUpload (key contentType : JsString) : UploadUrl := ⟨key, contentType⟩

def presignDownload (key : JsString) (fileName : Option JsString) : DownloadUrl :=
  ⟨key, (truthy fileName).map fun name => js "attachment; filename=\"" ++ name ++ js "\""⟩

/-- `DeleteObjectCommand`. -/
def deleteObject (key : JsString) (w : World) : World :=
  { w with objects := deleteWhere (·.key == key) w.objects }

/-- `delete`: a failure of the bucket (`up` is `false`) is logged and swallowed. -/
def delete (up : Bool) (key : JsString) : Service Unit := fun w =>
  (.ok (), if up then deleteObject key w else w)

/-- A client puts an object to a presigned URL. -/
def putObject (url : UploadUrl) (w : World) : World :=
  { w with
    objects := deleteWhere (·.key == url.key) w.objects ++ [⟨url.key, url.contentType⟩] }

theorem delete_bind {β : Type} (up : Bool) (key : JsString) (k : Unit → Service β) (w : World) :
    (delete up key >>= k) w = k () (if up then deleteObject key w else w) := rfl

end StorageService

/-- Where one organization's part of the bucket ends and another's begins: an id without a slash is
what stands before the first slash after `org/`. -/
theorem orgPrefix_disjoint {a b key : JsString} (ha : (47 : CodeUnit) ∉ a)
    (hb : (47 : CodeUnit) ∉ b) (hka : orgPrefix a <+: key) (hkb : orgPrefix b <+: key) : a = b := by
  have hslash : js "/" = [47] := by decide
  have hsplit : ∀ c, (47 : CodeUnit) ∉ c → orgPrefix c <+: key →
      c = (key.drop 4).takeWhile (· != 47) := by
    rintro c hc ⟨rest, rfl⟩
    have hdrop : (orgPrefix c ++ rest).drop 4 = c ++ 47 :: rest := by
      rw [orgPrefix, hslash, List.append_assoc, List.append_assoc]
      rfl
    rw [hdrop, List.takeWhile_append_of_pos]
    · simp
    · intro x hx
      simpa using fun h : x = 47 => hc (h ▸ hx)
  rw [hsplit a ha hka, hsplit b hb hkb]

/-- An id generated by the database has no slash in it. -/
theorem slash_notMem_of_cuidFormat {id : JsString} (h : cuidFormat id = true) :
    (47 : CodeUnit) ∉ id :=
  notMem_of_cuidFormat h (by decide) (by decide)

end PmSaas
