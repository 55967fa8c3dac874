import PmSaas.Db.Schema

/-!
# `schemas.ts`: the request payloads

What a handler receives after `ZodValidationPipe`.  `Option` stands for an optional or nullish
field whose absence and `null` the handler treats alike; `Option (Option α)` separates
`undefined` (`none`) from `null` (`some none`).
-/

namespace PmSaas

structure RegisterInput where
  email : JsString
  password : JsString
  name : JsString
  orgName : Option JsString
  deriving DecidableEq, Repr

structure LoginInput where
  email : JsString
  password : JsString
  deriving DecidableEq, Repr

structure CreateOrgInput where
  name : JsString
  slug : JsString
  deriving DecidableEq, Repr

structure CreateProjectInput where
  name : JsString
  key : JsString
  description : Option JsString
  teamId : Option JsString
  deriving DecidableEq, Repr

structure CreateIssueInput where
  title : JsString
  description : Option JsString := none
  status : IssueStatus := .BACKLOG
  priority : IssuePriority := .NONE
  assigneeId : Option JsString := none
  dueDate : Option Date := none
  labelIds : List JsString := []
  deriving DecidableEq, Repr

/-- `createIssueSchema.partial()`; `IssuesService.update` does not read `labelIds`. -/
structure UpdateIssueInput where
  title : Option JsString := none
  description : Option JsString := none
  status : Option IssueStatus := none
  priority : Option IssuePriority := none
  assigneeId : Option (Option JsString) := none
  dueDate : Option (Option Date) := none
  labelIds : Option (List JsString) := none
  deriving DecidableEq, Repr

/-- Place the issue in `status` between two neighbours; `null` is a column edge. -/
structure MoveIssueInput where
  status : IssueStatus
  aboveId : Option JsString
  belowId : Option JsString
  deriving DecidableEq, Repr

structure IssueFilter where
  q : Option JsString := none
  status : Option IssueStatus := none
  priority : Option IssuePriority := none
  assigneeId : Option JsString := none
  cursor : Option JsString := none
  limit : ℕ := 50
  deriving DecidableEq, Repr

structure PresignAttachmentInput where
  fileName : JsString
  contentType : JsString
  size : ℕ
  deriving DecidableEq, Repr

structure ConfirmAttachmentInput where
  fileKey : JsString
  fileName : JsString
  contentType : JsString
  size : ℕ
  deriving DecidableEq, Repr

structure NotificationPrefsInput where
  emailOnAssigned : Option Bool := none
  emailOnMentioned : Option Bool := none
  emailOnComment : Option Bool := none
  deriving DecidableEq, Repr

/-- `cond ? … : null` on a string: absent, `null` and the empty string are falsy. -/
def truthy (s : Option JsString) : Option JsString := s.filter (· ≠ [])

end PmSaas
