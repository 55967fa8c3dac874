import PmSaas.Common.Service
import PmSaas.Lib.Table

/-!
# `token.service.ts`: issuing, rotating and revoking refresh tokens

A call is a small machine that makes one Prisma call per step: `Pc` says which one comes next and
what the method remembers by then, and `step` makes it.  The same machine serves both readings of
the service — driven to its end at once (`exec`) it is the method called alone, and several of
them taking turns are concurrent requests.

`Step` lists everything a step can do, and `step_spec` says that nothing else happens.
-/

namespace PmSaas

open Table

structure DeviceInfo where
  userAgent : Option JsString
  ip : Option JsString
  deriving DecidableEq, Repr

/-- A signed access JWT: whoever holds it proves the payload. -/
structure AccessToken where
  payload : AuthUser
  deriving DecidableEq, Repr

structure IssuedTokens where
  accessToken : AccessToken
  refreshToken : JsString
  refreshExpiresAt : Date
  deriving DecidableEq, Repr

/-! ### The Prisma calls -/

/-- `refreshToken.findUnique({ where: { tokenHash } })`. -/
def Db.findRefreshToken (tokenHash : Sha256) (db : Db) : Option RefreshToken :=
  db.refreshTokens.find? (·.tokenHash == tokenHash)

/-- The same with `include: { user: { select: { id, email } } }`. -/
def Db.findRefreshTokenWithUser (tokenHash : Sha256) (db : Db) : Option (RefreshToken × AuthUser) :=
  (db.findRefreshToken tokenHash).bind fun t =>
    (db.users.find? (·.id == t.userId)).map fun u => (t, ⟨u.id, u.email⟩)

/-- `data: { revokedAt: new Date() }`. -/
def RefreshToken.revoke (now : Date) (t : RefreshToken) : RefreshToken :=
  { t with revokedAt := some now }

def Db.markRevoked (id : JsString) (now : Date) (db : Db) : Db :=
  { db with refreshTokens := updateWhere (·.id == id) (RefreshToken.revoke now) db.refreshTokens }

/-- `refreshToken.update({ where: { id }, data: { revokedAt: new Date() } })`. -/
def Db.revokeToken (id : JsString) (now : Date) (db : Db) : Except Exn (Unit × Db) :=
  if db.refreshTokens.any (·.id == id) then .ok ((), db.markRevoked id now)
  else .error (.prisma .recordNotFound)

/-- `refreshToken.updateMany({ where: { familyId, revokedAt: null }, … })`. -/
def Db.revokeFamily (familyId : JsString) (now : Date) (db : Db) : Db :=
  { db with
    refreshTokens := updateWhere (fun t => t.familyId == familyId && t.revokedAt.isNone)
      (RefreshToken.revoke now) db.refreshTokens }

def Db.insertRefreshToken (row : RefreshToken) (db : Db) : Db :=
  { db with refreshTokens := db.refreshTokens ++ [row] }

/-- `refreshToken.create`. -/
def Db.createRefreshToken (row : RefreshToken) (db : Db) : Except Exn (Unit × Db) :=
  if db.refreshTokens.any (fun t => t.id == row.id || t.tokenHash == row.tokenHash) then
    .error (.prisma .uniqueConstraint)
  else if !db.users.any (·.id == row.userId) then .error (.prisma .foreignKey)
  else .ok ((), db.insertRefreshToken row)

theorem Db.mem_of_findRefreshToken {db : Db} {tokenHash : Sha256} {existing : RefreshToken}
    (h : db.findRefreshToken tokenHash = some existing) :
    existing ∈ db.refreshTokens ∧ existing.tokenHash = tokenHash :=
  ⟨List.mem_of_find?_eq_some h, by simpa using List.find?_some h⟩

theorem Db.mem_of_findRefreshTokenWithUser {db : Db} {tokenHash : Sha256} {existing : RefreshToken}
    {user : AuthUser} (h : db.findRefreshTokenWithUser tokenHash = some (existing, user)) :
    existing ∈ db.refreshTokens ∧ existing.tokenHash = tokenHash := by
  obtain ⟨t, ht, hmap⟩ := Option.bind_eq_some_iff.1 h
  obtain ⟨u, _, hu⟩ := Option.map_eq_some_iff.1 hmap
  cases hu
  exact mem_of_findRefreshToken ht

/-! ### The service -/

namespace TokenService

def hash (token : JsString) : Sha256 := ⟨token⟩

/-- The family id of a fresh family. -/
def nanoid (g : Gen) : JsString := g.random 0

/-- `randomBytes(48).toString('base64url')`. -/
def randomToken (g : Gen) : JsString := g.random 1

inductive Request where
  | issueForUser (user : AuthUser) (device : DeviceInfo)
  | rotate (presentedToken : JsString) (device : DeviceInfo)
  | revoke (presentedToken : JsString)
  deriving DecidableEq, Repr

/-- Where a call stands between two Prisma calls. -/
inductive Pc where
  /-- Nothing done yet. -/
  | start (request : Request)
  /-- `rotate` found a revoked or expired token and is about to revoke the family. -/
  | rejecting (familyId : JsString)
  /-- `rotate` found a usable token and is about to revoke it. -/
  | consuming (existing : RefreshToken) (user : AuthUser) (device : DeviceInfo)
  /-- `rotate` is about to insert the successor. -/
  | creating (user : AuthUser) (familyId : JsString) (device : DeviceInfo)
  /-- `revoke` is about to revoke the family. -/
  | revoking (familyId : JsString)
  | done (answer : Except Exn (Option IssuedTokens))
  deriving DecidableEq

section Steps

variable (env : Env) (g : Gen)

def expiry : Date := g.now + env.JWT_REFRESH_TTL * 1000

/-- The row `createRefresh` inserts. -/
def newToken (user : AuthUser) (familyId : JsString) (device : DeviceInfo) : RefreshToken where
  id := (g.cuid 0).val
  userId := user.sub
  tokenHash := hash (randomToken g)
  familyId := familyId
  expiresAt := expiry env g
  revokedAt := none
  createdAt := g.now
  userAgent := device.userAgent
  ip := device.ip

/-- What `createRefresh` returns. -/
def issued (user : AuthUser) : IssuedTokens := ⟨⟨user⟩, randomToken g, expiry env g⟩

def createRefresh (user : AuthUser) (familyId : JsString) (device : DeviceInfo) (db : Db) :
    Pc × Db :=
  match db.createRefreshToken (newToken env g user familyId device) with
  | .ok ((), db) => (.done (.ok (some (issued env g user))), db)
  | .error e => (.done (.error e), db)

/-- The next Prisma call of a call that stands at a given point. -/
def step : Pc → Db → Pc × Db
  | .start (.issueForUser user device), db => createRefresh env g user (nanoid g) device db
  | .start (.rotate presentedToken device), db =>
      match db.findRefreshTokenWithUser (hash presentedToken) with
      | none => (.done (.error (.unauthorized (js "Invalid refresh token"))), db)
      | some (existing, user) =>
          -- Reuse of an already-rotated/revoked token => compromise.
          if existing.revokedAt.isSome || existing.expiresAt < g.now then
            (.rejecting existing.familyId, db)
          else (.consuming existing user device, db)
  | .start (.revoke presentedToken), db =>
      match db.findRefreshToken (hash presentedToken) with
      | none => (.done (.ok none), db)
      | some existing => (.revoking existing.familyId, db)
  | .rejecting familyId, db =>
      (.done (.error (.unauthorized (js "Refresh token expired or reused"))),
        db.revokeFamily familyId g.now)
  | .consuming existing user device, db =>
      match db.revokeToken existing.id g.now with
      | .ok ((), db) => (.creating user existing.familyId device, db)
      | .error e => (.done (.error e), db)
  | .creating user familyId device, db => createRefresh env g user familyId device db
  | .revoking familyId, db => (.done (.ok none), db.revokeFamily familyId g.now)
  | .done answer, db => (.done answer, db)

end Steps

/-- What a finished call answered. -/
def Pc.answer : Pc → Except Exn (Option IssuedTokens)
  | .done answer => answer
  | _ => .error (.error [])

/-- A call that runs alone makes at most three Prisma calls; the `k`-th reads the clock and draws
its random values from `gs k`. -/
def exec (env : Env) (gs : ℕ → Gen) (request : Request) (db : Db) :
    Except Exn (Option IssuedTokens) × Db :=
  let (pc₁, db₁) := step env (gs 0) (.start request) db
  let (pc₂, db₂) := step env (gs 1) pc₁ db₁
  let (pc₃, db₃) := step env (gs 2) pc₂ db₂
  (pc₃.answer, db₃)

/-! ### Points of a call -/

/-- The family a call is about to insert a successor into. -/
def Pc.inserting : Pc → Option JsString
  | .creating _ familyId _ => some familyId
  | _ => none

/-- The token a `rotate` is about to revoke. -/
def Pc.consumed : Pc → Option RefreshToken
  | .consuming existing _ _ => some existing
  | _ => none

/-- The family of a `rotate` that passed its check and has not inserted the successor. -/
def Pc.inFlight : Pc → Option JsString
  | .consuming existing _ _ => some existing.familyId
  | .creating _ familyId _ => some familyId
  | _ => none

/-- The family a call is about to revoke. -/
def Pc.sweeping : Pc → Option JsString
  | .rejecting familyId => some familyId
  | .revoking familyId => some familyId
  | _ => none

/-- The family a call has looked up. -/
def Pc.family (pc : Pc) : Option JsString := pc.inFlight.or pc.sweeping

theorem Pc.family_of_inserting {pc : Pc} {familyId : JsString}
    (h : pc.inserting = some familyId) : pc.family = some familyId := by
  cases pc with
  | creating user f device => exact h
  | _ => cases h

theorem Pc.family_of_sweeping {pc : Pc} {familyId : JsString}
    (h : pc.sweeping = some familyId) : pc.family = some familyId := by
  cases pc with
  | rejecting f => exact h
  | revoking f => exact h
  | _ => cases h

/-- Generated ids, tokens and family ids do not collide with stored ones. -/
def Fresh (g : Gen) (db : Db) : Prop :=
  ∀ t ∈ db.refreshTokens,
    t.id ≠ (g.cuid 0).val ∧ t.tokenHash ≠ hash (randomToken g) ∧ t.familyId ≠ nanoid g

instance (g : Gen) (db : Db) : Decidable (Fresh g db) := List.decidableBAll ..

/-- `createRefresh` throws what the database throws, or inserts the row. -/
theorem createRefresh_cases (env : Env) (g : Gen) (user : AuthUser) (familyId : JsString)
    (device : DeviceInfo) (db : Db) :
    (∃ code, createRefresh env g user familyId device db = (.done (.error (.prisma code)), db)) ∨
    createRefresh env g user familyId device db = (.done (.ok (some (issued env g user))),
        db.insertRefreshToken (newToken env g user familyId device)) ∧
      ∀ t ∈ db.refreshTokens, t.tokenHash ≠ hash (randomToken g) := by
  unfold createRefresh Db.createRefreshToken
  split_ifs with hused howner
  · exact .inl ⟨_, rfl⟩
  · exact .inl ⟨_, rfl⟩
  · refine .inr ⟨rfl, fun t ht hhash => hused (List.any_eq_true.2 ⟨t, ht, ?_⟩)⟩
    simp [newToken, hhash]

/-- With fresh values, `createRefresh` fails only for a user who does not exist. -/
theorem createRefresh_fresh {env : Env} {g : Gen} {db : Db} (user : AuthUser) (familyId : JsString)
    (device : DeviceInfo) (hfresh : Fresh g db) :
    createRefresh env g user familyId device db =
      if db.users.any (·.id == user.sub) then
        (.done (.ok (some (issued env g user))),
          db.insertRefreshToken (newToken env g user familyId device))
      else (.done (.error (.prisma .foreignKey)), db) := by
  have hunique : (db.refreshTokens.any fun t =>
      t.id == (newToken env g user familyId device).id ||
        t.tokenHash == (newToken env g user familyId device).tokenHash) = false := by
    refine List.any_eq_false.2 fun t ht => ?_
    have hne := hfresh t ht
    simp [newToken, hne.1, hne.2.1]
  have huser : (newToken env g user familyId device).userId = user.sub := rfl
  simp only [createRefresh, Db.createRefreshToken, hunique, huser]
  cases db.users.any (·.id == user.sub) <;> rfl

/-! ### What one step can do -/

/-- The steps of a call, by what they find and write. -/
inductive Step (env : Env) (g : Gen) (db : Db) : Pc → Pc → Db → Prop
  | stay (answer : Except Exn (Option IssuedTokens)) : Step env g db (.done answer) (.done answer) db
  | refuse (pc : Pc) (e : Exn) (unswept : pc.sweeping = none) : Step env g db pc (.done (.error e)) db
  | reject {presentedToken : JsString} {device : DeviceInfo} {existing : RefreshToken}
      {user : AuthUser}
      (found : db.findRefreshTokenWithUser (hash presentedToken) = some (existing, user))
      (reused : existing.revokedAt.isSome || existing.expiresAt < g.now) :
      Step env g db (.start (.rotate presentedToken device)) (.rejecting existing.familyId) db
  | check {presentedToken : JsString} {device : DeviceInfo} {existing : RefreshToken}
      {user : AuthUser}
      (found : db.findRefreshTokenWithUser (hash presentedToken) = some (existing, user))
      (unrevoked : existing.revokedAt = none) (unexpired : ¬existing.expiresAt < g.now) :
      Step env g db (.start (.rotate presentedToken device)) (.consuming existing user device) db
  | logoutUnknown {presentedToken : JsString} :
      db.findRefreshToken (hash presentedToken) = none →
      Step env g db (.start (.revoke presentedToken)) (.done (.ok none)) db
  | logout {presentedToken : JsString} {existing : RefreshToken} :
      db.findRefreshToken (hash presentedToken) = some existing →
      Step env g db (.start (.revoke presentedToken)) (.revoking existing.familyId) db
  | rejectSweep (familyId : JsString) :
      Step env g db (.rejecting familyId)
        (.done (.error (.unauthorized (js "Refresh token expired or reused"))))
        (db.revokeFamily familyId g.now)
  | logoutSweep (familyId : JsString) :
      Step env g db (.revoking familyId) (.done (.ok none)) (db.revokeFamily familyId g.now)
  | consume (existing : RefreshToken) (user : AuthUser) (device : DeviceInfo)
      (present : ∃ t ∈ db.refreshTokens, t.id = existing.id) :
      Step env g db (.consuming existing user device) (.creating user existing.familyId device)
        (db.markRevoked existing.id g.now)
  | insert {pc : Pc} {user : AuthUser} {familyId : JsString} {device : DeviceInfo}
      (origin : pc = .creating user familyId device ∨
        pc = .start (.issueForUser user device) ∧ familyId = nanoid g)
      (fresh : ∀ t ∈ db.refreshTokens,
        t.id ≠ (g.cuid 0).val ∧ t.tokenHash ≠ hash (randomToken g))
      (owner : ∃ u ∈ db.users, u.id = user.sub) :
      Step env g db pc (.done (.ok (some (issued env g user))))
        (db.insertRefreshToken (newToken env g user familyId device))

section Spec

variable {env : Env} {g : Gen} {db : Db}

theorem createRefresh_spec {pc : Pc} {user : AuthUser} {familyId : JsString} {device : DeviceInfo}
    (origin : pc = .creating user familyId device ∨
      pc = .start (.issueForUser user device) ∧ familyId = nanoid g) :
    Step env g db pc (createRefresh env g user familyId device db).1
      (createRefresh env g user familyId device db).2 := by
  have hsweep : pc.sweeping = none := by
    rcases origin with rfl | ⟨rfl, _⟩ <;> rfl
  unfold createRefresh Db.createRefreshToken
  split_ifs with huniq huser
  · exact .refuse pc _ hsweep
  · exact .refuse pc _ hsweep
  · refine .insert origin ?_ ?_
    · intro t ht
      have hne := fun hor => huniq (List.any_eq_true.2 ⟨t, ht, hor⟩)
      simpa [newToken] using hne
    · simpa [newToken] using huser

/-- **Nothing but a `Step` happens.** -/
theorem step_spec (pc : Pc) : Step env g db pc (step env g pc db).1 (step env g pc db).2 := by
  cases pc with
  | start request =>
      cases request with
      | issueForUser user device => exact createRefresh_spec (.inr ⟨rfl, rfl⟩)
      | rotate presentedToken device =>
          rw [step]
          cases hfound : db.findRefreshTokenWithUser (hash presentedToken) with
          | none => exact .refuse _ _ rfl
          | some found =>
              obtain ⟨existing, user⟩ := found
              by_cases hreused : existing.revokedAt.isSome || existing.expiresAt < g.now
              · simp only [if_pos hreused]
                exact .reject hfound hreused
              · simp only [if_neg hreused]
                simp only [Bool.or_eq_true, not_or, decide_eq_true_eq, Option.not_isSome_iff_eq_none]
                  at hreused
                exact .check hfound hreused.1 hreused.2
      | revoke presentedToken =>
          rw [step]
          cases hfound : db.findRefreshToken (hash presentedToken) with
          | none => exact .logoutUnknown hfound
          | some existing => exact .logout hfound
  | rejecting familyId => exact .rejectSweep familyId
  | consuming existing user device =>
      simp only [step, Db.revokeToken]
      split_ifs with hpresent
      · exact .consume existing user device (by simpa using hpresent)
      · exact .refuse _ _ rfl
  | creating user familyId device => exact createRefresh_spec (.inl rfl)
  | revoking familyId => exact .logoutSweep familyId
  | done answer => exact .stay answer

/-- Only the `refresh_tokens` table is written. -/
theorem Step.frame {pc pc' : Pc} {db' : Db} (h : Step env g db pc pc' db') :
    ∃ tokens, db' = { db with refreshTokens := tokens } := by
  cases h <;> exact ⟨_, rfl⟩

end Spec

/-! ### The service methods -/

/-- A call that runs alone, with one reading of the clock. -/
def call (env : Env) (request : Request) (g : Gen) : Service (Option IssuedTokens) := fun w =>
  let (answer, db) := exec env (fun _ => g) request w.db
  (answer, { w with db := db })

def issueForUser (env : Env) (user : AuthUser) (device : DeviceInfo) (g : Gen) :
    Service IssuedTokens := do
  let tokens ← call env (.issueForUser user device) g
  Service.orThrow tokens (.error [])

def rotate (env : Env) (presentedToken : JsString) (device : DeviceInfo) (g : Gen) :
    Service IssuedTokens := do
  let tokens ← call env (.rotate presentedToken device) g
  Service.orThrow tokens (.error [])

def revoke (env : Env) (presentedToken : JsString) (g : Gen) : Service Unit := do
  let _ ← call env (.revoke presentedToken) g
  pure ()

theorem step_frame (env : Env) (g : Gen) (pc : Pc) (db : Db) :
    ∃ tokens, (step env g pc db).2 = { db with refreshTokens := tokens } :=
  (step_spec pc).frame

/-- A call leaves every table but `refresh_tokens` alone. -/
theorem exec_frame (env : Env) (gs : ℕ → Gen) (request : Request) (db : Db) :
    ∃ tokens, (exec env gs request db).2 = { db with refreshTokens := tokens } := by
  show ∃ tokens, (step env (gs 2) (step env (gs 1) (step env (gs 0) (.start request) db).1
    (step env (gs 0) (.start request) db).2).1 (step env (gs 1)
      (step env (gs 0) (.start request) db).1 (step env (gs 0) (.start request) db).2).2).2 = _
  obtain ⟨t₁, h₁⟩ := step_frame env (gs 0) (.start request) db
  obtain ⟨t₂, h₂⟩ := step_frame env (gs 1) (step env (gs 0) (.start request) db).1
    (step env (gs 0) (.start request) db).2
  obtain ⟨t₃, h₃⟩ := step_frame env (gs 2) (step env (gs 1) (step env (gs 0) (.start request) db).1
    (step env (gs 0) (.start request) db).2).1 (step env (gs 1)
      (step env (gs 0) (.start request) db).1 (step env (gs 0) (.start request) db).2).2
  refine ⟨t₃, h₃.trans ?_⟩
  rw [h₂, h₁]

/-- The world with other refresh tokens. -/
def withTokens (w : World) (tokens : List RefreshToken) : World :=
  { w with db := { w.db with refreshTokens := tokens } }

theorem call_frame (env : Env) (request : Request) (g : Gen) (w : World) :
    ∃ tokens, (call env request g w).2 = withTokens w tokens := by
  obtain ⟨tokens, h⟩ := exec_frame env (fun _ => g) request w.db
  exact ⟨tokens, by rw [withTokens, ← h]; rfl⟩

theorem issueForUser_frame (env : Env) (user : AuthUser) (device : DeviceInfo) (g : Gen)
    (w : World) : ∃ tokens, (issueForUser env user device g w).2 = withTokens w tokens := by
  obtain ⟨tokens, h⟩ := call_frame env (.issueForUser user device) g w
  refine ⟨tokens, ?_⟩
  rw [← h, issueForUser, Service.bind_apply]
  rcases call env (.issueForUser user device) g w with ⟨_ | _ | _, w'⟩ <;> rfl

/-- A user who exists gets tokens unless a generated value is in use. -/
theorem issueForUser_answer (env : Env) (user : AuthUser) (device : DeviceInfo) (g : Gen) {w : World}
    (howner : ∃ u ∈ w.db.users, u.id = user.sub) :
    (issueForUser env user device g w).1 =
      if w.db.refreshTokens.any (fun t => t.id == (g.cuid 0).val ||
          t.tokenHash == hash (randomToken g)) then .error (.prisma .uniqueConstraint)
      else .ok (issued env g user) := by
  have huser : w.db.users.any (·.id == user.sub) = true := by simpa using howner
  cases hany : w.db.refreshTokens.any (fun t => t.id == (g.cuid 0).val ||
      t.tokenHash == hash (randomToken g)) <;>
    simp [issueForUser, Service.bind_apply, call, exec, step, createRefresh, Db.createRefreshToken,
      newToken, hany, huser, Pc.answer, Service.orThrow]

theorem rotate_frame (env : Env) (presentedToken : JsString) (device : DeviceInfo) (g : Gen)
    (w : World) : ∃ tokens, (rotate env presentedToken device g w).2 = withTokens w tokens := by
  obtain ⟨tokens, h⟩ := call_frame env (.rotate presentedToken device) g w
  refine ⟨tokens, ?_⟩
  rw [← h, rotate, Service.bind_apply]
  rcases call env (.rotate presentedToken device) g w with ⟨_ | _ | _, w'⟩ <;> rfl

theorem revoke_frame (env : Env) (presentedToken : JsString) (g : Gen) (w : World) :
    ∃ tokens, (revoke env presentedToken g w).2 = withTokens w tokens := by
  obtain ⟨tokens, h⟩ := call_frame env (.revoke presentedToken) g w
  refine ⟨tokens, ?_⟩
  rw [← h, revoke, Service.bind_apply]
  rcases call env (.revoke presentedToken) g w with ⟨_ | _, w'⟩ <;> rfl

/-! ### Sample values -/

namespace Samples

def user : AuthUser := ⟨Demo.user.id, Demo.user.email⟩

def device : DeviceInfo := ⟨none, none⟩

def env : Env := ⟨js "http://localhost:3000", 1209600⟩

/-- A step that draws the id, the token and the family id `text`. -/
def draw (id : Cuid) (text : JsString) : Gen := ⟨0, fun _ => id, fun _ => text⟩

def first : Gen := draw ⟨js "c0", by decide⟩ (js "t0")
def second : Gen := draw ⟨js "c1", by decide⟩ (js "t1")
def third : Gen := draw ⟨js "c2", by decide⟩ (js "t2")

end Samples

end TokenService

end PmSaas
