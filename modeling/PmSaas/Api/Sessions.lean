import PmSaas.Api.Answers
import PmSaas.Api.Changes

/-!
# Who a request acts as

`jwt.strategy.ts`, `jwt-auth.guard.ts` and `auth.controller.ts` on top of the API: a request carries
a bearer token and a cookie, the public routes of `AuthController` hand out both, and every other
route runs as the user of a bearer token that has not expired.

Clients keep what they are given and present it again; what else a client presents is no token
(`Site.Feasible`).  `guarded_request_authentic`: whoever acts as a user has sent a password that
`bcrypt.compare` accepts for that account, and was given the bearer token less than `JWT_ACCESS_TTL`
seconds ago.
-/

namespace PmSaas

open JsString Table TransitionSystem

/-! ### The guard -/

structure SessionEnv extends ApiEnv where
  /-- In seconds. -/
  JWT_ACCESS_TTL : ℤ

/-- A `NumericDate`: `Math.floor(Date.now() / 1000)`. -/
def seconds (now : Date) : ℤ := now / 1000

/-- An access JWT with the `iat` that `sign` adds to the payload. -/
structure Jwt where
  token : AccessToken
  iat : ℤ
  deriving DecidableEq, Repr

/-- `signAccess` at a time. -/
def Jwt.sign (token : AccessToken) (now : Date) : Jwt := ⟨token, seconds now⟩

/-- The `jwt` strategy with `ignoreExpiration: false`, and its `validate`. -/
def JwtStrategy.authenticate (env : SessionEnv) (now : Date) (bearer : Option Jwt) :
    Except Exn AuthUser :=
  match bearer with
  | none => .error (.unauthorized (js "Unauthorized"))
  | some jwt =>
      if jwt.iat + env.JWT_ACCESS_TTL ≤ seconds now then
        .error (.unauthorized (js "Unauthorized"))
      else .ok ⟨jwt.token.payload.sub, jwt.token.payload.email⟩

theorem JwtStrategy.authenticate_ok {env : SessionEnv} {now : Date} {bearer : Option Jwt}
    {user : AuthUser} (h : authenticate env now bearer = .ok user) :
    ∃ jwt, bearer = some jwt ∧ jwt.token.payload = user ∧
      seconds now < jwt.iat + env.JWT_ACCESS_TTL := by
  unfold authenticate at h
  cases bearer with
  | none => cases h
  | some jwt =>
      dsimp only at h
      split at h
      · cases h
      · cases h
        exact ⟨jwt, rfl, rfl, by omega⟩

theorem JwtStrategy.authenticate_error {env : SessionEnv} {now : Date} {bearer : Option Jwt}
    {e : Exn} (h : authenticate env now bearer = .error e) :
    e = .unauthorized (js "Unauthorized") := by
  unfold authenticate at h
  cases bearer with
  | none => exact (Except.error.inj h).symm
  | some jwt =>
      dsimp only at h
      split at h
      · exact (Except.error.inj h).symm
      · cases h

/-- The routes that are not `@Public` and write. -/
inductive UserRoute where
  | createOrg (input : CreateOrgInput)
  | acceptInvite (token : JsString)
  | tenant (orgSlug : JsString) (call : TenantWrite)
  | markRead (ids : List JsString)
  | markAllRead
  | updatePrefs (prefs : NotificationPrefsInput)

/-- The handler's call for `@CurrentUser()`. -/
def UserRoute.call (user : AuthUser) : UserRoute → ApiCall
  | .createOrg input => .createOrg user input
  | .acceptInvite token => .acceptInvite user token
  | .tenant orgSlug call => .tenant user orgSlug call
  | .markRead ids => .markRead user ids
  | .markAllRead => .markAllRead user
  | .updatePrefs prefs => .updatePrefs user prefs

inductive Route where
  | register (input : RegisterInput)
  | login (input : LoginInput)
  | refresh
  | logout
  | webhook (event : Except Exn StripeEvent)
  | guarded (route : UserRoute)

/-- `IS_PUBLIC_KEY`. -/
def Route.isPublic : Route → Bool
  | .guarded _ => false
  | _ => true

structure HttpRequest where
  route : Route
  /-- `Authorization: Bearer`, when the signature verifies. -/
  bearer : Option Jwt
  /-- The `refresh_token` cookie. -/
  cookie : Option JsString
  device : DeviceInfo

/-- `canActivate` of `JwtAuthGuard`: what becomes `req.user`. -/
def JwtAuthGuard.canActivate (env : SessionEnv) (now : Date) (request : HttpRequest) :
    Except Exn (Option AuthUser) :=
  if request.route.isPublic then .ok none
  else (JwtStrategy.authenticate env now request.bearer).map some

/-- The controllers: the tokens they hand out, if any. -/
def Route.handle (env : SessionEnv) (request : HttpRequest) (g : Gen) (user : Option AuthUser) :
    Route → Service (Option IssuedTokens)
  | .register input => do
      let (tokens, _) ← AuthService.register env.auth input request.device g
      pure (some tokens)
  | .login input => do
      let (tokens, _) ← AuthService.login env.auth input request.device g
      pure (some tokens)
  | .refresh => do
      let token ← Service.orThrow (truthy request.cookie) (.unauthorized (js "No refresh token"))
      let tokens ← AuthService.refresh env.auth token request.device g
      pure (some tokens)
  | .logout => do
      AuthService.logout env.auth request.cookie g
      pure none
  | .webhook event => do
      BillingService.handleWebhook env.billing event g
      pure none
  | .guarded route => do
      let user ← Service.orThrow user (.unauthorized (js "Unauthorized"))
      (route.call user).serve env.toApiEnv g
      pure none

/-- A request: the global guard, then the controller. -/
def HttpRequest.serve (env : SessionEnv) (request : HttpRequest) (g : Gen) :
    Service (Option IssuedTokens) := do
  let user ← Service.exec fun db =>
    (JwtAuthGuard.canActivate env g.now request).map fun user => (user, db)
  request.route.handle env request g user

/-! ### Clients -/

/-- What a client was given: bearer tokens and refresh cookies. -/
structure Wallet where
  bearers : List Jwt
  cookies : List JsString

/-- The body and the cookie of a sign-in. -/
def Wallet.receive (tokens : IssuedTokens) (now : Date) (wallet : Wallet) : Wallet where
  bearers := wallet.bearers ++ [.sign tokens.accessToken now]
  cookies := wallet.cookies ++ [tokens.refreshToken]

/-- The API and its clients. -/
structure Site (κ : Type*) where
  world : World
  wallet : κ → Wallet

inductive SiteEvent (κ : Type*) where
  | request (client : κ) (request : HttpRequest)
  | upload (url : UploadUrl)
  | work (job : NotificationJob)

section Sites

variable {κ : Type*} [DecidableEq κ]

def Site.next (env : SessionEnv) (s : Site κ) : SiteEvent κ × Gen → Site κ
  | (.request client request, g) =>
      match request.serve env g s.world with
      | (.ok (some tokens), world) =>
          { world := world
            wallet := Function.update s.wallet client ((s.wallet client).receive tokens g.now) }
      | (_, world) => { s with world := world }
  | (.upload url, g) => { s with world := (ApiCall.upload url).exec env.toApiEnv g s.world }
  | (.work job, g) => { s with world := (ApiCall.work job).exec env.toApiEnv g s.world }

/-- A client presents tokens it was given; any other cookie is not the preimage of a stored hash. -/
def Site.Feasible (s : Site κ) : SiteEvent κ × Gen → Prop
  | (.request client request, _) =>
      (∀ jwt ∈ request.bearer, jwt ∈ (s.wallet client).bearers) ∧
      ∀ cookie ∈ request.cookie, cookie ∈ (s.wallet client).cookies ∨
        ∀ t ∈ s.world.db.refreshTokens, t.tokenHash ≠ TokenService.hash cookie
  | _ => True

/-- A fresh installation and clients that were given nothing. -/
def Site.fresh : Site κ := ⟨World.empty, fun _ => ⟨[], []⟩⟩

abbrev SiteRun (env : SessionEnv) (events : List (SiteEvent κ × Gen)) (s : Site κ) : Prop :=
  Run (Steps Site.Feasible (Site.next env)) Site.fresh events s

end Sites

/-! ### Proof of an identity -/

/-- The e-mail address and the password that a request sends. -/
def Route.credentials : Route → Option (JsString × JsString)
  | .register input => some (input.email, input.password)
  | .login input => some (input.email, input.password)
  | _ => none

/-- The columns of the users that sign-ins look at. -/
def Db.credentials (db : Db) := db.users.map fun u => (u.id, u.email, u.passwordHash)

section Provenance

variable {κ : Type*}

/-- The account exists, and the client has sent its e-mail address and a password that bcrypt takes
for the account's. -/
def Proved (events : List (SiteEvent κ × Gen)) (db : Db) (client : κ) (user : AuthUser) : Prop :=
  ∃ hash password, (user.sub, user.email, some hash) ∈ db.credentials ∧
    Bcrypt.compare password hash = true ∧
    ∃ request g, (SiteEvent.request client request, g) ∈ events ∧
      request.route.credentials = some (user.email, password)

/-- `AuthController` answered a request of the client at the time the bearer token was issued. -/
def Given (events : List (SiteEvent κ × Gen)) (client : κ) (jwt : Jwt) : Prop :=
  ∃ request g, (SiteEvent.request client request, g) ∈ events ∧ request.route.isPublic = true ∧
    jwt.iat = seconds g.now

variable {events : List (SiteEvent κ × Gen)} {client : κ} {user : AuthUser}

theorem Proved.mono {db db' : Db} (h : Proved events db client user)
    (hkept : db.credentials ⊆ db'.credentials) : Proved events db' client user := by
  obtain ⟨hash, password, haccount, hsent⟩ := h
  exact ⟨hash, password, hkept haccount, hsent⟩

theorem Proved.later {db : Db} (h : Proved events db client user) (e : SiteEvent κ × Gen) :
    Proved (events ++ [e]) db client user := by
  obtain ⟨hash, password, haccount, hcompare, request, g, hmem, hsent⟩ := h
  exact ⟨hash, password, haccount, hcompare, request, g, List.mem_append_left _ hmem, hsent⟩

theorem Given.later {jwt : Jwt} (h : Given events client jwt) (e : SiteEvent κ × Gen) :
    Given (events ++ [e]) client jwt := by
  obtain ⟨request, g, hmem, hrest⟩ := h
  exact ⟨request, g, List.mem_append_left _ hmem, hrest⟩

end Provenance

/-! ### Credentials and sessions -/

/-- The columns of the refresh tokens that say whose they are. -/
def Db.sessions (db : Db) := db.refreshTokens.map fun t => (t.tokenHash, t.userId)

theorem Db.sessions_revoke (db : Db) (p : RefreshToken → Bool) (now : Date) :
    (updateWhere p (RefreshToken.revoke now) db.refreshTokens).map
      (fun t => (t.tokenHash, t.userId)) = db.sessions :=
  map_updateWhere fun _ _ _ => rfl

/-- A new session of a user who exists. -/
structure SessionOpened (env : Env) (g : Gen) (user : AuthUser) (db db' : Db)
    (tokens : IssuedTokens) : Prop where
  issued : tokens = TokenService.issued env g user
  sessions : db'.sessions = db.sessions ++
    [(TokenService.hash (TokenService.randomToken g), user.sub)]
  credentials : db'.credentials = db.credentials
  fresh : ∀ s ∈ db.sessions, s.1 ≠ TokenService.hash (TokenService.randomToken g)

/-- The credentials and the sessions stay. -/
def Db.SignInsKept (db db' : Db) : Prop :=
  db'.credentials = db.credentials ∧ db'.sessions = db.sessions

theorem SessionOpened.of_kept {env : Env} {g : Gen} {user : AuthUser} {db db₁ db' : Db}
    {tokens : IssuedTokens}
    (hkept : db.SignInsKept db₁) (h : SessionOpened env g user db₁ db' tokens) :
    SessionOpened env g user db db' tokens := by
  obtain ⟨hcredentials, hsessions⟩ := hkept
  exact ⟨h.issued, by rw [h.sessions, hsessions], h.credentials.trans hcredentials,
    hsessions ▸ h.fresh⟩

namespace TokenService

variable {env : Env} {g : Gen} {db : Db}

theorem createRefresh_opens (env : Env) (g : Gen) (user : AuthUser) (familyId : JsString)
    (device : DeviceInfo) (db : Db) :
    (∃ e, createRefresh env g user familyId device db = (.done (.error e), db)) ∨
    ∃ db', createRefresh env g user familyId device db =
        (.done (.ok (some (issued env g user))), db') ∧
      SessionOpened env g user db db' (issued env g user) := by
  rcases createRefresh_cases env g user familyId device db with ⟨code, h⟩ | ⟨h, hunused⟩
  · exact .inl ⟨_, h⟩
  · refine .inr ⟨_, h, rfl, ?_, rfl, ?_⟩
    · simp [Db.sessions, Db.insertRefreshToken, newToken]
    · intro s hs hhash
      obtain ⟨t, ht, rfl⟩ := List.mem_map.1 hs
      exact hunused t ht hhash

/-- The user a request is to issue tokens for. -/
def Request.Names (db : Db) (user : AuthUser) : Request → Prop
  | .issueForUser named _ => named = user
  | .rotate presentedToken _ =>
      ∃ existing, db.findRefreshTokenWithUser (hash presentedToken) = some (existing, user)
  | .revoke _ => False

/-- A call opens a session of the user it names, or no session. -/
theorem call_cases (env : Env) (request : Request) (g : Gen) (w : World) :
    (∃ user db' tokens, request.Names w.db user ∧
      call env request g w = (.ok (some tokens), { w with db := db' }) ∧
      SessionOpened env g user w.db db' tokens) ∨
    (∀ tokens, (call env request g w).1 ≠ .ok (some tokens)) ∧
      w.db.SignInsKept (call env request g w).2.db := by
  cases request with
  | issueForUser user device =>
      rcases createRefresh_opens env g user (nanoid g) device w.db with ⟨e, he⟩ | ⟨db', hok, hopen⟩
      · refine .inr ?_
        simp only [call, exec, step, he, Pc.answer]
        exact ⟨fun _ => by simp, rfl, rfl⟩
      · refine .inl ⟨user, db', _, rfl, ?_, hopen⟩
        simp only [call, exec, step, hok, Pc.answer]
  | rotate presentedToken device =>
      cases hfound : w.db.findRefreshTokenWithUser (hash presentedToken) with
      | none =>
          refine .inr ?_
          simp only [call, exec, step, hfound, Pc.answer]
          exact ⟨fun _ => by simp, rfl, rfl⟩
      | some found =>
          obtain ⟨existing, user⟩ := found
          by_cases hreused : (existing.revokedAt.isSome || existing.expiresAt < g.now) = true
          · refine .inr ?_
            simp only [call, exec, step, hfound, if_pos hreused, Pc.answer]
            exact ⟨fun _ => by simp, rfl, w.db.sessions_revoke _ g.now⟩
          · have hmem := (Db.mem_of_findRefreshTokenWithUser hfound).1
            have hpresent : w.db.refreshTokens.any (·.id == existing.id) = true :=
              List.any_eq_true.2 ⟨existing, hmem, beq_self_eq_true _⟩
            have hrevoke : w.db.revokeToken existing.id g.now =
                .ok ((), w.db.markRevoked existing.id g.now) := if_pos hpresent
            have hkept : w.db.SignInsKept (w.db.markRevoked existing.id g.now) :=
              ⟨rfl, w.db.sessions_revoke _ g.now⟩
            rcases createRefresh_opens env g user existing.familyId device
              (w.db.markRevoked existing.id g.now) with ⟨e, he⟩ | ⟨db', hok, hopen⟩
            · refine .inr ?_
              simp only [call, exec, step, hfound, if_neg hreused, hrevoke, he, Pc.answer]
              exact ⟨fun _ => by simp, hkept⟩
            · refine .inl ⟨user, db', _, ⟨existing, hfound⟩, ?_, hopen.of_kept hkept⟩
              simp only [call, exec, step, hfound, if_neg hreused, hrevoke, hok, Pc.answer]
  | revoke presentedToken =>
      refine .inr ?_
      cases hfound : w.db.findRefreshToken (hash presentedToken) with
      | none =>
          simp only [call, exec, step, hfound, Pc.answer]
          exact ⟨fun _ => by simp, rfl, rfl⟩
      | some existing =>
          simp only [call, exec, step, hfound, Pc.answer]
          exact ⟨fun _ => by simp, rfl, w.db.sessions_revoke _ g.now⟩

end TokenService

/-- The tokens in an answer. -/
def handedOut (answer : Except Exn (Option IssuedTokens)) : Option IssuedTokens :=
  answer.toOption.join

/-- What a request does to accounts and sessions, and the tokens it hands out. -/
inductive SignInEffect (env : Env) (g : Gen) (request : HttpRequest) (db db' : Db) :
    Option IssuedTokens → Prop
  | kept (same : db.SignInsKept db') : SignInEffect env g request db db' none
  | registered {input : RegisterInput} {db₁ : Db} {answer : Option IssuedTokens}
      (route : request.route = .register input)
      (new : ∀ c ∈ db.credentials, c.1 ≠ (g.cuid 0).val)
      (credentials : db₁.credentials = db.credentials ++
        [((g.cuid 0).val, input.email, some (Bcrypt.hash input.password))])
      (sessions : db₁.sessions = db.sessions)
      (rest : answer = none ∧ db₁.SignInsKept db' ∨ ∃ tokens, answer = some tokens ∧
        SessionOpened env (g.skip 5) ⟨(g.cuid 0).val, input.email⟩ db₁ db' tokens) :
      SignInEffect env g request db db' answer
  | loggedIn {input : LoginInput} {u : User} {tokens : IssuedTokens}
      (route : request.route = .login input) (account : u ∈ db.users)
      (email : u.email = input.email) {hash : Bcrypt} (stored : u.passwordHash = some hash)
      (password : Bcrypt.compare input.password hash = true)
      (opened : SessionOpened env g ⟨u.id, u.email⟩ db db' tokens) :
      SignInEffect env g request db db' (some tokens)
  | refreshed {cookie : JsString} {existing : RefreshToken} {user : AuthUser}
      {tokens : IssuedTokens} (route : request.route = .refresh)
      (presented : request.cookie = some cookie)
      (found : db.findRefreshTokenWithUser (TokenService.hash cookie) = some (existing, user))
      (opened : SessionOpened env g user db db' tokens) :
      SignInEffect env g request db db' (some tokens)

theorem Db.SignInsKept.refl (db : Db) : db.SignInsKept db := ⟨rfl, rfl⟩

/-- A call that is no sign-in keeps accounts and sessions. -/
theorem ApiChange.signInsKept {env : ApiEnv} {g : Gen} {w w' : World} {call : ApiCall}
    (h : ApiChange env g w call w') (hregister : ∀ input device, call ≠ .register input device)
    (hlogin : ∀ input device, call ≠ .login input device)
    (hrefresh : ∀ token device, call ≠ .refresh token device)
    (hlogout : ∀ token, call ≠ .logout token) : w.db.SignInsKept w'.db := by
  cases h with
  | @register input device _ _ _ => exact absurd rfl (hregister input device)
  | @registerOrg input device _ _ _ _ _ _ _ _ => exact absurd rfl (hregister input device)
  | @login input device _ => exact absurd rfl (hlogin input device)
  | @refresh token device _ => exact absurd rfl (hrefresh token device)
  | @logout token _ => exact absurd rfl (hlogout token)
  | createOrg committed =>
      obtain ⟨-, rfl, -⟩ := Db.createOrganization_ok committed
      exact .refl _
  | acceptInvite found pending addressee committed burnt =>
      obtain ⟨_, rfl⟩ := Db.burnInvite_ok burnt
      rcases Db.upsertMembership_ok committed with rfl | ⟨rfl, -⟩
      · exact .refl _
      · exact .refl _
  | tenant member allowed change =>
      refine ⟨?_, ?_⟩
      · unfold Db.credentials
        rw [change.tables.1]
      · unfold Db.sessions
        rw [change.personal.1]
  | markRead user ids => exact .refl _
  | markAllRead user => exact .refl _
  | updatePrefs committed =>
      unfold Db.updatePrefs at committed
      split at committed
      · cases committed
      · cases committed
        exact ⟨map_updateWhere fun _ _ _ => rfl, rfl⟩
  | webhook known customer committed =>
      rw [Db.reconcile_ok committed]
      exact .refl _
  | upload url => exact .refl _
  | work queued => exact .refl _

/-- Side effects are no sign-in. -/
theorem Aftermath.signInsKept {organizationId : JsString} {w w' : World}
    (h : Aftermath organizationId w w') : w.db.SignInsKept w'.db := by
  obtain ⟨⟨logs, -, hdb⟩, -⟩ := h
  rw [hdb]
  exact .refl _

theorem Db.SignInsKept.trans {db₁ db₂ db₃ : Db} (h : db₁.SignInsKept db₂)
    (h' : db₂.SignInsKept db₃) : db₁.SignInsKept db₃ :=
  ⟨h'.1.trans h.1, h'.2.trans h.2⟩

/-- `issueForUser` opens a session of the user, or none. -/
theorem TokenService.issueForUser_cases (env : Env) (user : AuthUser) (device : DeviceInfo)
    (g : Gen) (w : World) :
    (∃ db' tokens, issueForUser env user device g w = (.ok tokens, { w with db := db' }) ∧
      SessionOpened env g user w.db db' tokens) ∨
    ∃ e w', issueForUser env user device g w = (.error e, w') ∧ w.db.SignInsKept w'.db := by
  rw [issueForUser, Service.bind_apply]
  rcases call_cases env (.issueForUser user device) g w with
    ⟨_, db', tokens, rfl, hcall, hopen⟩ | ⟨hnone, hkept⟩
  · rw [hcall]
    exact .inl ⟨db', tokens, rfl, hopen⟩
  · right
    rcases hcall : call env (.issueForUser user device) g w with ⟨_ | _ | tokens, w'⟩
    · exact ⟨_, w', rfl, by rwa [hcall] at hkept⟩
    · exact ⟨_, w', rfl, by rwa [hcall] at hkept⟩
    · exact absurd (by rw [hcall]) (hnone tokens)

/-- `rotate` opens a session of the user whose token it finds, or none. -/
theorem TokenService.rotate_cases (env : Env) (token : JsString) (device : DeviceInfo)
    (g : Gen) (w : World) :
    (∃ existing user db' tokens,
      w.db.findRefreshTokenWithUser (hash token) = some (existing, user) ∧
      rotate env token device g w = (.ok tokens, { w with db := db' }) ∧
      SessionOpened env g user w.db db' tokens) ∨
    ∃ e w', rotate env token device g w = (.error e, w') ∧ w.db.SignInsKept w'.db := by
  rw [rotate, Service.bind_apply]
  rcases call_cases env (.rotate token device) g w with
    ⟨user, db', tokens, ⟨existing, hfound⟩, hcall, hopen⟩ | ⟨hnone, hkept⟩
  · rw [hcall]
    exact .inl ⟨existing, user, db', tokens, hfound, rfl, hopen⟩
  · right
    rcases hcall : call env (.rotate token device) g w with ⟨_ | _ | tokens, w'⟩
    · exact ⟨_, w', rfl, by rwa [hcall] at hkept⟩
    · exact ⟨_, w', rfl, by rwa [hcall] at hkept⟩
    · exact absurd (by rw [hcall]) (hnone tokens)

/-- The end of `register`. -/
theorem AuthService.register_signIn_finish (env : Env) (user : User) (device : DeviceInfo) (g : Gen)
    {db : Db} {x : Service Unit} {w : World} (hkept : db.SignInsKept (x w).2.db) :
    (∃ e w', (do
        x
        let tokens ← TokenService.issueForUser env ⟨user.id, user.email⟩ device g
        pure (tokens, user.id) : Service (IssuedTokens × JsString)) w = (.error e, w') ∧
      db.SignInsKept w'.db) ∨
    ∃ w' tokens, (do
        x
        let tokens ← TokenService.issueForUser env ⟨user.id, user.email⟩ device g
        pure (tokens, user.id) : Service (IssuedTokens × JsString)) w =
          (.ok (tokens, user.id), w') ∧
      SessionOpened env g ⟨user.id, user.email⟩ db w'.db tokens := by
  rw [Service.bind_apply]
  rcases hx : x w with ⟨e | _, w₁⟩
  · exact .inl ⟨e, w₁, rfl, by rwa [hx] at hkept⟩
  · rw [hx] at hkept
    rcases TokenService.issueForUser_cases env ⟨user.id, user.email⟩ device g w₁ with
      ⟨db', tokens, hissue, hopen⟩ | ⟨e, w', hissue, hafter⟩
    · simp only [Service.bind_apply, hissue]
      exact .inr ⟨_, tokens, rfl, hopen.of_kept hkept⟩
    · simp only [Service.bind_apply, hissue]
      exact .inl ⟨e, w', rfl, hkept.trans hafter⟩

/-- `register` throws and changes nothing, or creates the user and goes on to sign in. -/
theorem AuthService.register_signIn (env : Env) (input : RegisterInput) (device : DeviceInfo)
    (g : Gen) (w : World) :
    (∃ e, register env input device g w = (.error e, w)) ∨
    ∃ db, w.db.createUser (newUser input g) = .ok (newUser input g, db) ∧
      ((∃ e w', register env input device g w = (.error e, w') ∧ db.SignInsKept w'.db) ∨
        ∃ w' tokens, register env input device g w = (.ok (tokens, (g.cuid 0).val), w') ∧
          SessionOpened env (g.skip 5) ⟨(g.cuid 0).val, input.email⟩ db w'.db tokens) := by
  rw [register, Service.query_bind, Service.throwIf_bind]
  split
  · exact .inl ⟨_, rfl⟩
  · rw [Service.exec_bind]
    cases hu : w.db.createUser (newUser input g) with
    | error e => exact .inl ⟨_, rfl⟩
    | ok r =>
        obtain ⟨user, db⟩ := r
        obtain ⟨rfl, -, -⟩ := Db.createUser_ok hu
        refine .inr ⟨db, rfl, ?_⟩
        cases truthy input.orgName with
        | none =>
            exact register_signIn_finish (x := pure ()) (w := { w with db := db }) env
              (newUser input g) device (g.skip 5) (.refl db)
        | some orgName =>
            refine register_signIn_finish
              (x := createOrgForUser (newUser input g).id orgName (g.skip 1))
              (w := { w with db := db }) env (newUser input g) device (g.skip 5) ?_
            rcases createOrgForUser_cases (newUser input g).id orgName (g.skip 1)
              { w with db := db } with hsame | ⟨slug, org, db', hc, hafter⟩
            · rw [hsame]
              exact .refl db
            · obtain ⟨-, rfl, -⟩ := Db.createOrganization_ok hc
              exact hafter.signInsKept

/-- What `createUser` leaves. -/
theorem Db.createUser_signIn {input : RegisterInput} {g : Gen} {db db' : Db}
    (h : db.createUser (AuthService.newUser input g) = .ok (AuthService.newUser input g, db')) :
    (∀ c ∈ db.credentials, c.1 ≠ (g.cuid 0).val) ∧
      db'.credentials = db.credentials ++
        [((g.cuid 0).val, input.email, some (Bcrypt.hash input.password))] ∧
      db'.sessions = db.sessions := by
  obtain ⟨-, rfl, hnew⟩ := Db.createUser_ok h
  refine ⟨fun c hc => ?_, ?_, rfl⟩
  · obtain ⟨u, hu, rfl⟩ := List.mem_map.1 hc
    exact hnew u hu
  · exact List.map_append

/-- A request that only makes a call. -/
theorem SignInEffect.of_forget {env : Env} {g : Gen} {request : HttpRequest} {w : World}
    {x : Service Unit} (hkept : w.db.SignInsKept (x w).2.db) :
    SignInEffect env g request w.db ((do x; pure none : Service (Option IssuedTokens)) w).2.db
      (handedOut ((do x; pure none : Service (Option IssuedTokens)) w).1) := by
  rw [Service.bind_apply]
  rcases hx : x w with ⟨_ | _, w'⟩
  · exact .kept (by rwa [hx] at hkept)
  · exact .kept (by rwa [hx] at hkept)

theorem ApiCall.exec_signInsKept (env : ApiEnv) (g : Gen) {call : ApiCall} (w : World)
    (hregister : ∀ input device, call ≠ .register input device)
    (hlogin : ∀ input device, call ≠ .login input device)
    (hrefresh : ∀ token device, call ≠ .refresh token device)
    (hlogout : ∀ token, call ≠ .logout token) : w.db.SignInsKept (call.exec env g w).db := by
  rcases call.exec_cases env g w with hsame | ⟨w', organizationId, hchange, hafter⟩
  · rw [hsame]
    exact .refl _
  · exact (hchange.signInsKept hregister hlogin hrefresh hlogout).trans hafter.signInsKept

/-- `@Public` routes run without a user. -/
theorem HttpRequest.serve_public (env : SessionEnv) {request : HttpRequest} (g : Gen) (w : World)
    (hpublic : request.route.isPublic = true) :
    request.serve env g w = request.route.handle env request g none w := by
  rw [serve, Service.exec_bind, JwtAuthGuard.canActivate, if_pos hpublic]
  rfl

/-- The other routes run as the user of the bearer token. -/
theorem HttpRequest.serve_guarded (env : SessionEnv) {request : HttpRequest} {route : UserRoute}
    (g : Gen) (w : World) (hroute : request.route = .guarded route) :
    (∃ e, JwtStrategy.authenticate env g.now request.bearer = .error e ∧
      request.serve env g w = (.error e, w)) ∨
    ∃ user, JwtStrategy.authenticate env g.now request.bearer = .ok user ∧
      request.serve env g w = (do
        (route.call user).serve env.toApiEnv g
        pure none : Service (Option IssuedTokens)) w := by
  rw [serve, Service.exec_bind, JwtAuthGuard.canActivate, if_neg (by simp [hroute, Route.isPublic])]
  cases JwtStrategy.authenticate env g.now request.bearer with
  | error e => exact .inl ⟨e, rfl, rfl⟩
  | ok user => exact .inr ⟨user, rfl, by rw [hroute]; rfl⟩

/-- A guarded route is no sign-in. -/
theorem UserRoute.serve_signInsKept (env : ApiEnv) (g : Gen) (user : AuthUser) (route : UserRoute)
    (w : World) : w.db.SignInsKept ((route.call user).serve env g w).2.db := by
  rw [ApiCall.serve_world]
  apply ApiCall.exec_signInsKept <;> cases route <;> simp [UserRoute.call]

theorem AuthService.logout_signInsKept (env : Env) (token : Option JsString) (g : Gen) (w : World) :
    w.db.SignInsKept (AuthService.logout env token g w).2.db := by
  rw [AuthService.logout]
  cases truthy token with
  | none => exact .refl _
  | some token =>
      dsimp only
      rw [TokenService.revoke, Service.bind_apply]
      rcases TokenService.call_cases env (.revoke token) g w with
        ⟨_, _, _, hnames, _⟩ | ⟨-, hkept⟩
      · exact hnames.elim
      · rcases hcall : TokenService.call env (.revoke token) g w with ⟨_ | _, w'⟩
        · rwa [hcall] at hkept
        · rwa [hcall] at hkept

/-- **What a request does to accounts and sessions.** -/
theorem HttpRequest.serve_effect (env : SessionEnv) (request : HttpRequest) (g : Gen) (w : World) :
    SignInEffect env.auth g request w.db (request.serve env g w).2.db
      (handedOut (request.serve env g w).1) := by
  obtain ⟨route, bearer, cookie, device⟩ := request
  cases route with
  | register input =>
      rw [serve_public env g w rfl]
      dsimp only [Route.handle]
      rw [Service.bind_apply]
      rcases AuthService.register_signIn env.auth input device g w with
        ⟨e, he⟩ | ⟨db, hcreate, hrest⟩
      · rw [he]
        exact .kept (.refl _)
      · obtain ⟨hnew, hcredentials, hsessions⟩ := Db.createUser_signIn hcreate
        rcases hrest with ⟨e, w', he, hkept⟩ | ⟨w', tokens, hok, hopen⟩
        · rw [he]
          exact .registered rfl hnew hcredentials hsessions (.inl ⟨rfl, hkept⟩)
        · rw [hok]
          exact .registered rfl hnew hcredentials hsessions (.inr ⟨tokens, rfl, hopen⟩)
  | login input =>
      rw [serve_public env g w rfl]
      dsimp only [Route.handle]
      rw [Service.bind_apply, AuthService.login, Service.query_bind, Service.orThrow_bind]
      cases hfound : (w.db.findUserByEmail input.email).filter
          fun u => u.passwordHash.any (Bcrypt.compare input.password) with
      | none => exact .kept (.refl _)
      | some user =>
          obtain ⟨huser, hpassword⟩ := Option.filter_eq_some_iff.1 hfound
          obtain ⟨hash, hstored, hcompare⟩ := (Option.any_eq_true ..).1 hpassword
          dsimp only
          rw [Service.bind_apply]
          rcases TokenService.issueForUser_cases env.auth ⟨user.id, user.email⟩ device g w with
            ⟨db', tokens, hissue, hopen⟩ | ⟨e, w', hissue, hkept⟩
          · rw [hissue]
            exact .loggedIn rfl (List.mem_of_find?_eq_some huser)
              (by simpa using List.find?_some huser) hstored hcompare hopen
          · rw [hissue]
            exact .kept hkept
  | refresh =>
      rw [serve_public env g w rfl]
      dsimp only [Route.handle]
      rw [Service.orThrow_bind]
      cases hcookie : truthy cookie with
      | none => exact .kept (.refl _)
      | some token =>
          dsimp only
          rw [Service.bind_apply, AuthService.refresh]
          rcases TokenService.rotate_cases env.auth token device g w with
            ⟨existing, user, db', tokens, hfound, hissue, hopen⟩ | ⟨e, w', hissue, hkept⟩
          · rw [hissue]
            exact .refreshed rfl (Option.filter_eq_some_iff.1 hcookie).1 hfound hopen
          · rw [hissue]
            exact .kept hkept
  | logout =>
      rw [serve_public env g w rfl]
      exact .of_forget (AuthService.logout_signInsKept env.auth cookie g w)
  | webhook event =>
      rw [serve_public env g w rfl]
      exact .of_forget
        (@ApiCall.exec_signInsKept env.toApiEnv g (.webhook event) w
          (by simp) (by simp) (by simp) (by simp))
  | guarded route =>
      rcases @serve_guarded env ⟨.guarded route, bearer, cookie, device⟩ route g w rfl with
        ⟨e, -, he⟩ | ⟨user, -, hserve⟩
      · rw [he]
        exact .kept (.refl _)
      · rw [hserve]
        exact .of_forget (route.serve_signInsKept env.toApiEnv g user w)

/-! ### The site over a run -/

section Runs

variable {κ : Type*}

/-- What clients hold, with where it comes from. -/
structure Site.Sound (events : List (SiteEvent κ × Gen)) (s : Site κ) : Prop where
  accounts : (s.world.db.credentials.map Prod.fst).Nodup
  sessions : (s.world.db.sessions.map Prod.fst).Nodup
  cookies : ∀ client, ∀ cookie ∈ (s.wallet client).cookies, ∃ user,
    (TokenService.hash cookie, user.sub) ∈ s.world.db.sessions ∧
      Proved events s.world.db client user
  bearers : ∀ client, ∀ jwt ∈ (s.wallet client).bearers,
    Proved events s.world.db client jwt.token.payload ∧ Given events client jwt

variable {events : List (SiteEvent κ × Gen)} {s : Site κ}

theorem Site.Sound.later (h : s.Sound events) (e : SiteEvent κ × Gen) :
    s.Sound (events ++ [e]) where
  accounts := h.accounts
  sessions := h.sessions
  cookies client cookie hcookie := by
    obtain ⟨user, hsession, hproved⟩ := h.cookies client cookie hcookie
    exact ⟨user, hsession, hproved.later e⟩
  bearers client jwt hjwt :=
    ⟨(h.bearers client jwt hjwt).1.later e, (h.bearers client jwt hjwt).2.later e⟩

/-- A step that adds accounts at most. -/
theorem Site.Sound.accountsAdded (h : s.Sound events) {w : World}
    (hcredentials : s.world.db.credentials ⊆ w.db.credentials)
    (hdistinct : (w.db.credentials.map Prod.fst).Nodup)
    (hsessions : w.db.sessions = s.world.db.sessions) :
    Site.Sound events { s with world := w } where
  accounts := hdistinct
  sessions := by
    rw [hsessions]
    exact h.sessions
  cookies client cookie hcookie := by
    obtain ⟨user, hsession, hproved⟩ := h.cookies client cookie hcookie
    exact ⟨user, hsessions ▸ hsession, hproved.mono hcredentials⟩
  bearers client jwt hjwt :=
    ⟨(h.bearers client jwt hjwt).1.mono hcredentials, (h.bearers client jwt hjwt).2⟩

theorem Site.Sound.kept (h : s.Sound events) {w : World} (hkept : s.world.db.SignInsKept w.db) :
    Site.Sound events { s with world := w } := by
  obtain ⟨hcredentials, hsessions⟩ := hkept
  refine h.accountsAdded (hcredentials ▸ List.Subset.refl _) ?_ hsessions
  rw [hcredentials]
  exact h.accounts

/-- An account with a new id. -/
theorem Site.Sound.registered (h : s.Sound events) {w : World}
    {account : JsString × JsString × Option Bcrypt}
    (hnew : ∀ c ∈ s.world.db.credentials, c.1 ≠ account.1)
    (hcredentials : w.db.credentials = s.world.db.credentials ++ [account])
    (hsessions : w.db.sessions = s.world.db.sessions) :
    Site.Sound events { s with world := w } := by
  refine h.accountsAdded ?_ ?_ hsessions
  · rw [hcredentials]
    exact List.subset_append_left ..
  · rw [hcredentials, List.map_append]
    refine List.nodup_append.2 ⟨h.accounts, List.nodup_singleton _, ?_⟩
    rintro _ hold _ hid rfl
    obtain ⟨c, hc, heq⟩ := List.mem_map.1 hold
    exact hnew c hc (heq.trans (List.mem_singleton.1 hid))

/-- The session that a refresh finds is one that the client was given. -/
theorem Site.Sound.refresher (h : s.Sound events) {client : κ} {request : HttpRequest} {g : Gen}
    (hfeasible : s.Feasible (.request client request, g)) {cookie : JsString}
    {existing : RefreshToken} {user : AuthUser} (hcookie : request.cookie = some cookie)
    (hfound : s.world.db.findRefreshTokenWithUser (TokenService.hash cookie) =
      some (existing, user)) : Proved events s.world.db client user := by
  obtain ⟨hexisting, hhash⟩ := Db.mem_of_findRefreshTokenWithUser hfound
  obtain ⟨t, ht, hmap⟩ := Option.bind_eq_some_iff.1 hfound
  obtain ⟨u, hu, heq⟩ := Option.map_eq_some_iff.1 hmap
  cases heq
  have hheld : cookie ∈ (s.wallet client).cookies := by
    rcases hfeasible.2 cookie hcookie with hheld | hunknown
    · exact hheld
    · exact absurd hhash (hunknown existing hexisting)
  obtain ⟨user, hsession, hproved⟩ := h.cookies client cookie hheld
  -- The stored hash says which user, and the id which account.
  have howner : user.sub = existing.userId := by
    have hrow : (TokenService.hash cookie, existing.userId) ∈ s.world.db.sessions :=
      List.mem_map.2 ⟨existing, hexisting, by rw [hhash]⟩
    have := List.inj_on_of_nodup_map h.sessions hsession hrow rfl
    exact congrArg Prod.snd this
  have hid : u.id = existing.userId := by simpa using List.find?_some hu
  have haccount : user = ⟨u.id, u.email⟩ := by
    obtain ⟨hash, password, hstored, -⟩ := hproved
    have hrow : (u.id, u.email, u.passwordHash) ∈ s.world.db.credentials :=
      List.mem_map.2 ⟨u, List.mem_of_find?_eq_some hu, rfl⟩
    have := List.inj_on_of_nodup_map h.accounts hstored hrow (howner.trans hid.symm)
    cases user
    simp only [Prod.mk.injEq] at this
    simp [this]
  exact haccount ▸ hproved

variable [DecidableEq κ]

theorem Site.next_request (env : SessionEnv) (s : Site κ) (client : κ) (request : HttpRequest)
    (g : Gen) :
    s.next env (.request client request, g) =
      { world := (request.serve env g s.world).2
        wallet := (handedOut (request.serve env g s.world).1).elim s.wallet fun tokens =>
          Function.update s.wallet client ((s.wallet client).receive tokens g.now) } := by
  rw [next]
  rcases request.serve env g s.world with ⟨_ | _ | _, w⟩ <;> rfl

/-- What a client holds after somebody signed in: what it held, and its own new token. -/
theorem Wallet.mem_received {β : Type} (held : Wallet → List β) {wallet : κ → Wallet}
    {client client' : κ} {tokens : IssuedTokens} {now : Date} {x new : β}
    (hnew : held ((wallet client).receive tokens now) = held (wallet client) ++ [new])
    (h : x ∈ held (Function.update wallet client ((wallet client).receive tokens now) client')) :
    x ∈ held (wallet client') ∨ client' = client ∧ x = new := by
  by_cases hclient : client' = client
  · subst hclient
    rw [Function.update_self, hnew, List.mem_append, List.mem_singleton] at h
    exact h.imp_right fun heq => ⟨rfl, heq⟩
  · rw [Function.update_of_ne hclient] at h
    exact .inl h

/-- A client that has proved an identity is given tokens for it. -/
theorem Site.Sound.opened {env : Env} {g g' : Gen} {w : World} {client : κ} {user : AuthUser}
    {tokens : IssuedTokens} {request : HttpRequest} (h : s.Sound events)
    (hproved : Proved events s.world.db client user)
    (hrequest : (SiteEvent.request client request, g) ∈ events)
    (hpublic : request.route.isPublic = true)
    (hopen : SessionOpened env g' user s.world.db w.db tokens) :
    Site.Sound events
      ⟨w, Function.update s.wallet client ((s.wallet client).receive tokens g.now)⟩ := by
  have haccounts : s.world.db.credentials ⊆ w.db.credentials :=
    hopen.credentials ▸ List.Subset.refl _
  refine ⟨?_, ?_, ?_, ?_⟩
  · rw [hopen.credentials]
    exact h.accounts
  · rw [hopen.sessions, List.map_append]
    refine List.nodup_append.2 ⟨h.sessions, List.nodup_singleton _, ?_⟩
    rintro _ hold _ hnew rfl
    obtain ⟨session, hsession, heq⟩ := List.mem_map.1 hold
    exact hopen.fresh session hsession (heq.trans (List.mem_singleton.1 hnew))
  · intro client' cookie hcookie
    show ∃ user', _ ∈ w.db.sessions ∧ Proved events w.db client' user'
    rw [hopen.sessions]
    rcases Wallet.mem_received Wallet.cookies rfl hcookie with hold | ⟨rfl, rfl⟩
    · obtain ⟨user', hsession, hproved'⟩ := h.cookies client' cookie hold
      exact ⟨user', List.mem_append_left _ hsession, hproved'.mono haccounts⟩
    · refine ⟨user, List.mem_append_right _ ?_, hproved.mono haccounts⟩
      rw [hopen.issued]
      exact List.mem_singleton_self _
  · intro client' jwt hjwt
    rcases Wallet.mem_received Wallet.bearers rfl hjwt with hold | ⟨rfl, rfl⟩
    · exact ⟨(h.bearers client' jwt hold).1.mono haccounts, (h.bearers client' jwt hold).2⟩
    · refine ⟨?_, request, g, hrequest, hpublic, rfl⟩
      rw [hopen.issued]
      exact hproved.mono haccounts

/-- **A step keeps it.** -/
theorem Site.Sound.next (env : SessionEnv) (h : s.Sound events) {e : SiteEvent κ × Gen}
    (hfeasible : s.Feasible e) : Site.Sound (events ++ [e]) (s.next env e) := by
  have hlater := h.later e
  obtain ⟨event, g⟩ := e
  have hmem : (event, g) ∈ events ++ [(event, g)] := List.mem_append_right _ (.head _)
  cases event with
  | upload url =>
      exact hlater.kept (ApiCall.exec_signInsKept _ g _ (by simp) (by simp) (by simp) (by simp))
  | work job =>
      exact hlater.kept (ApiCall.exec_signInsKept _ g _ (by simp) (by simp) (by simp) (by simp))
  | request client request =>
      rw [Site.next_request]
      have heffect := request.serve_effect env g s.world
      revert heffect
      generalize (request.serve env g s.world).2 = w
      generalize handedOut (request.serve env g s.world).1 = answer
      intro heffect
      cases heffect with
      | kept hkept => exact hlater.kept hkept
      | @registered input db₁ answer hroute hnew hcredentials hsessions hrest =>
          have hadded := hlater.registered (w := { s.world with db := db₁ }) hnew hcredentials
            hsessions
          rcases hrest with ⟨rfl, hkept⟩ | ⟨tokens, rfl, hopen⟩
          · exact hadded.kept hkept
          · have haccount : ((g.cuid 0).val, input.email, some (Bcrypt.hash input.password)) ∈
                db₁.credentials := hcredentials ▸ List.mem_append_right _ (.head _)
            exact hadded.opened ⟨_, input.password, haccount, Bcrypt.compare_hash _, request, g,
              hmem, by rw [hroute]; rfl⟩ hmem (by rw [hroute]; rfl) hopen
      | @loggedIn input u tokens hroute haccount hemail hash hstored hcompare hopen =>
          have hrow : (u.id, u.email, some hash) ∈ s.world.db.credentials :=
            List.mem_map.2 ⟨u, haccount, by rw [hstored]⟩
          exact hlater.opened ⟨hash, input.password, hrow, hcompare, request, g, hmem,
            by rw [hroute, hemail]; rfl⟩ hmem (by rw [hroute]; rfl) hopen
      | refreshed hroute hcookie hfound hopen =>
          exact hlater.opened ((h.refresher hfeasible hcookie hfound).later _) hmem
            (by rw [hroute]; rfl) hopen

theorem Site.sound_of_run {env : SessionEnv} (hrun : SiteRun env events s) : s.Sound events := by
  induction hrun with
  | nil =>
      exact ⟨List.nodup_nil, List.nodup_nil, fun _ _ h => absurd h List.not_mem_nil,
        fun _ _ h => absurd h List.not_mem_nil⟩
  | snoc hrun hstep ih =>
      obtain ⟨hfeasible, rfl⟩ := hstep
      exact ih.next env hfeasible

end Runs

/-! ### Ann registers and reads her notifications -/

namespace Sessions.Samples

def env : SessionEnv where
  auth := TokenService.Samples.env
  billing := ⟨js "http://localhost:3000", [], [], []⟩
  JWT_ACCESS_TTL := 900

def registration : HttpRequest :=
  { route := .register ⟨js "ann@demo.dev", js "password1", js "Ann", none⟩
    bearer := none, cookie := none, device := ⟨none, none⟩ }

def draw : Gen := ⟨0, fun _ => Demo.userId, fun _ => js "r0"⟩

/-- Only client 1 has an account. -/
def site : Site ℕ := Site.fresh.next env (.request 1 registration, draw)

def jwt : Jwt := ⟨⟨⟨Demo.userId.val, js "ann@demo.dev"⟩⟩, 0⟩

def visit : HttpRequest := { registration with route := .guarded .markAllRead, bearer := some jwt }

end Sessions.Samples

end PmSaas
