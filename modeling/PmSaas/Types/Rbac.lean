import Mathlib.Data.List.Basic
import PmSaas.Types.JsString

/-!
# `rbac.ts`: roles and permissions

The permission matrix shared by the API guards and the web UI.
-/

namespace PmSaas

inductive Role where
  | OWNER | ADMIN | MEMBER | GUEST
  deriving DecidableEq, Repr

/-- `roleSchema.exclude(['OWNER'])`, the type of every role a request may name. -/
abbrev GrantableRole := { r : Role // r ≠ .OWNER }

theorem member_ne_owner : Role.MEMBER ≠ .OWNER := by decide

/-- The enum value as a string. -/
def Role.text : Role → JsString
  | .OWNER => js "OWNER"
  | .ADMIN => js "ADMIN"
  | .MEMBER => js "MEMBER"
  | .GUEST => js "GUEST"

def ROLE_RANK : Role → ℕ
  | .OWNER => 3
  | .ADMIN => 2
  | .MEMBER => 1
  | .GUEST => 0

inductive Permission where
  | orgUpdate | orgDelete | orgManageBilling
  | memberInvite | memberRemove | memberUpdateRole
  | projectCreate | projectUpdate | projectDelete
  | issueCreate | issueUpdate | issueDelete | issueAssign
  | commentCreate | attachmentUpload
  | auditRead
  deriving DecidableEq, Repr

/-- The permission as a string. -/
def Permission.text : Permission → JsString
  | .orgUpdate => js "org:update"
  | .orgDelete => js "org:delete"
  | .orgManageBilling => js "org:manage_billing"
  | .memberInvite => js "member:invite"
  | .memberRemove => js "member:remove"
  | .memberUpdateRole => js "member:update_role"
  | .projectCreate => js "project:create"
  | .projectUpdate => js "project:update"
  | .projectDelete => js "project:delete"
  | .issueCreate => js "issue:create"
  | .issueUpdate => js "issue:update"
  | .issueDelete => js "issue:delete"
  | .issueAssign => js "issue:assign"
  | .commentCreate => js "comment:create"
  | .attachmentUpload => js "attachment:upload"
  | .auditRead => js "audit:read"

def MEMBER_PERMS : List Permission :=
  [.projectCreate, .projectUpdate, .issueCreate, .issueUpdate, .issueDelete, .issueAssign,
    .commentCreate, .attachmentUpload]

def ADMIN_PERMS : List Permission :=
  MEMBER_PERMS ++
    [.orgUpdate, .memberInvite, .memberRemove, .memberUpdateRole, .projectDelete, .auditRead]

def OWNER_PERMS : List Permission := ADMIN_PERMS ++ [.orgDelete, .orgManageBilling]

def GUEST_PERMS : List Permission := [.commentCreate]

def ROLE_PERMISSIONS : Role → List Permission
  | .OWNER => OWNER_PERMS
  | .ADMIN => ADMIN_PERMS
  | .MEMBER => MEMBER_PERMS
  | .GUEST => GUEST_PERMS

/-- Does `role` carry `permission`? -/
def can (role : Role) (permission : Permission) : Bool :=
  (ROLE_PERMISSIONS role).contains permission

/-- Is `role` at least as privileged as `min`? -/
def atLeast (role min : Role) : Bool := decide (ROLE_RANK min ≤ ROLE_RANK role)

/-- Above `GUEST` the explicit matrix follows the rank: a senior role carries every permission of
a junior one. -/
theorem can_of_atLeast {r s : Role} (h : atLeast r s = true) :
    ∀ p, can s p = true → can r p = true := by
  intro p
  cases r <;> cases s <;> cases p <;> revert h <;> decide

end PmSaas
