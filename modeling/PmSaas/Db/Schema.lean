import PmSaas.Types.JsString
import PmSaas.Types.Rbac

/-!
# `schema.prisma`: the database

One structure per table and one field per column.  A table is the list of its rows in insertion
order.  The digests `Sha256` and `Bcrypt` are symbolic: a digest is what it is computed from, the
whole token for the one and the 72 bytes of the key for the other, and nothing else about it is
observable.
-/

namespace PmSaas

/-- A `DateTime`, in milliseconds since the epoch. -/
abbrev Date := ℤ

/-- The shape of a generated id: a `c` followed by lower-case base-36 characters. -/
def cuidFormat : JsString → Bool
  | [] => false
  | c :: rest => c == 99 && rest.all fun u => (48 ≤ u && u ≤ 57) || (97 ≤ u && u ≤ 122)

/-- An id consists of digits and lower-case letters. -/
theorem notMem_of_cuidFormat {id : JsString} (h : cuidFormat id = true) {u : CodeUnit}
    (hdigit : ¬(48 ≤ u ∧ u ≤ 57)) (hletter : ¬(97 ≤ u ∧ u ≤ 122)) : u ∉ id := by
  cases id with
  | nil => cases h
  | cons c rest =>
      simp only [cuidFormat, Bool.and_eq_true, beq_iff_eq, List.all_eq_true, Bool.or_eq_true,
        decide_eq_true_eq] at h
      intro hmem
      rcases List.mem_cons.1 hmem with rfl | hrest
      · rw [h.1] at hletter
        exact hletter (by decide)
      · exact (h.2 u hrest).elim hdigit hletter

/-- An id produced by `@default(cuid())`. -/
structure Cuid where
  val : JsString
  format : cuidFormat val = true
  deriving DecidableEq

theorem Cuid.val_injective : Function.Injective Cuid.val := by
  rintro ⟨a, ha⟩ ⟨b, hb⟩ h
  cases h
  rfl

theorem Cuid.ne_nil (c : Cuid) : c.val ≠ [] := by
  intro h
  have hf := c.format
  rw [h] at hf
  cases hf

/-- `createHash('sha256').update(token).digest('hex')`. -/
structure Sha256 where
  preimage : JsString
  deriving DecidableEq, Repr

/-- A digest of `bcryptjs`. -/
structure Bcrypt where
  key : List ℕ
  deriving DecidableEq, Repr

/-- `bcrypt.hash(password, 10)`.  Blowfish is keyed with 72 bytes: the password in UTF-8 and a zero
byte, over and over, so two passwords that agree on those have the same digest. -/
def Bcrypt.hash (password : JsString) : Bcrypt where
  key := (List.range 72).map fun k =>
    (JsString.utf8 password).getD (k % ((JsString.utf8 password).length + 1)) 0

/-- `bcrypt.compare(password, hash)`. -/
def Bcrypt.compare (password : JsString) (hash : Bcrypt) : Bool := Bcrypt.hash password == hash

theorem Bcrypt.compare_hash (password : JsString) :
    Bcrypt.compare password (Bcrypt.hash password) = true := beq_self_eq_true _

/-- `Prisma.InputJsonValue`, as far as the services build it. -/
inductive Json where
  | null
  | str (s : JsString)
  | num (n : ℤ)
  | strs (l : List JsString)
  deriving DecidableEq, Repr

/-- A JSON object with the given fields. -/
abbrev JsonObject := List (String × Json)

inductive IssueStatus where
  | BACKLOG | TODO | IN_PROGRESS | IN_REVIEW | DONE | CANCELED
  deriving DecidableEq, Repr

/-- The enum value as a string. -/
def IssueStatus.text : IssueStatus → JsString
  | .BACKLOG => js "BACKLOG"
  | .TODO => js "TODO"
  | .IN_PROGRESS => js "IN_PROGRESS"
  | .IN_REVIEW => js "IN_REVIEW"
  | .DONE => js "DONE"
  | .CANCELED => js "CANCELED"

inductive IssuePriority where
  | NONE | LOW | MEDIUM | HIGH | URGENT
  deriving DecidableEq, Repr

inductive NotificationType where
  | ISSUE_ASSIGNED | ISSUE_STATUS_CHANGED | COMMENT_CREATED | MENTIONED | INVITED
  deriving DecidableEq, Repr

inductive SubscriptionPlan where
  | FREE | PRO | BUSINESS
  deriving DecidableEq, Repr

inductive SubscriptionStatus where
  | ACTIVE | TRIALING | PAST_DUE | CANCELED | INCOMPLETE
  deriving DecidableEq, Repr

/-! ### Identity -/

structure User where
  id : JsString
  email : JsString
  passwordHash : Option Bcrypt
  name : JsString
  avatarUrl : Option JsString
  createdAt : Date
  updatedAt : Date
  emailOnAssigned : Bool
  emailOnMentioned : Bool
  emailOnComment : Bool
  deriving DecidableEq, Repr

/-- Rotating refresh tokens: the hash is stored, never the raw token. -/
structure RefreshToken where
  id : JsString
  userId : JsString
  tokenHash : Sha256
  familyId : JsString
  expiresAt : Date
  revokedAt : Option Date
  createdAt : Date
  userAgent : Option JsString
  ip : Option JsString
  deriving DecidableEq, Repr

/-! ### Tenancy and RBAC -/

structure Organization where
  id : JsString
  slug : JsString
  name : JsString
  createdAt : Date
  updatedAt : Date
  deriving DecidableEq, Repr

structure Membership where
  id : JsString
  userId : JsString
  organizationId : JsString
  role : Role
  createdAt : Date
  deriving DecidableEq, Repr

structure Invite where
  id : JsString
  organizationId : JsString
  email : JsString
  role : Role
  tokenHash : Sha256
  invitedById : JsString
  expiresAt : Date
  acceptedAt : Option Date
  createdAt : Date
  deriving DecidableEq, Repr

structure Team where
  id : JsString
  organizationId : JsString
  name : JsString
  key : JsString
  createdAt : Date
  deriving DecidableEq, Repr

/-! ### Work items -/

structure Project where
  id : JsString
  organizationId : JsString
  teamId : Option JsString
  key : JsString
  name : JsString
  description : Option JsString
  issueCounter : ℕ
  archivedAt : Option Date
  createdAt : Date
  updatedAt : Date
  deriving DecidableEq, Repr

structure Issue where
  id : JsString
  organizationId : JsString
  projectId : JsString
  number : ℕ
  title : JsString
  description : Option JsString
  status : IssueStatus
  priority : IssuePriority
  rank : JsString
  reporterId : JsString
  assigneeId : Option JsString
  dueDate : Option Date
  createdAt : Date
  updatedAt : Date
  deriving DecidableEq, Repr

structure Label where
  id : JsString
  organizationId : JsString
  name : JsString
  color : JsString
  createdAt : Date
  deriving DecidableEq, Repr

structure IssueLabel where
  issueId : JsString
  labelId : JsString
  deriving DecidableEq, Repr

/-! ### Collaboration -/

structure Comment where
  id : JsString
  issueId : JsString
  authorId : JsString
  body : JsString
  createdAt : Date
  updatedAt : Date
  deriving DecidableEq, Repr

structure Mention where
  id : JsString
  commentId : JsString
  userId : JsString
  deriving DecidableEq, Repr

structure Attachment where
  id : JsString
  issueId : JsString
  uploaderId : JsString
  fileName : JsString
  fileKey : JsString
  contentType : JsString
  size : ℕ
  createdAt : Date
  deriving DecidableEq, Repr

/-! ### Notifications, audit and billing -/

structure Notification where
  id : JsString
  organizationId : JsString
  userId : JsString
  type : NotificationType
  payload : JsonObject
  readAt : Option Date
  createdAt : Date
  deriving DecidableEq, Repr

structure AuditLog where
  id : JsString
  organizationId : JsString
  actorId : Option JsString
  action : String
  entityType : String
  entityId : JsString
  metadata : Option JsonObject
  createdAt : Date
  deriving DecidableEq, Repr

structure Subscription where
  id : JsString
  organizationId : JsString
  stripeCustomerId : Option JsString
  stripeSubscriptionId : Option JsString
  plan : SubscriptionPlan
  status : SubscriptionStatus
  seats : ℕ
  currentPeriodEnd : Option Date
  cancelAtPeriodEnd : Bool
  updatedAt : Date
  deriving DecidableEq, Repr

/-- The whole database. -/
structure Db where
  users : List User
  refreshTokens : List RefreshToken
  organizations : List Organization
  memberships : List Membership
  invites : List Invite
  teams : List Team
  projects : List Project
  issues : List Issue
  labels : List Label
  issueLabels : List IssueLabel
  comments : List Comment
  mentions : List Mention
  attachments : List Attachment
  notifications : List Notification
  auditLogs : List AuditLog
  subscriptions : List Subscription
  deriving DecidableEq, Repr

/-- `select: { id: true, name: true, avatarUrl: true }` of a related user. -/
structure UserBrief where
  id : JsString
  name : JsString
  avatarUrl : Option JsString
  deriving DecidableEq, Repr

/-- The user a relation field refers to. -/
def Db.userBrief (id : JsString) (db : Db) : Option UserBrief :=
  (db.users.find? (·.id == id)).map fun u => ⟨u.id, u.name, u.avatarUrl⟩

/-- The database right after the migrations ran. -/
def Db.empty : Db := ⟨[], [], [], [], [], [], [], [], [], [], [], [], [], [], [], []⟩

end PmSaas
