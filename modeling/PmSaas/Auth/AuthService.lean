import PmSaas.Auth.TokenService
import PmSaas.Types.Schemas

/-!
# `auth.service.ts`: registration, login, refresh and logout

`register` creates the user, optionally an organization with the user as its `OWNER`, and a first
token pair.  The organization's slug is derived from its name and numbered until it is free;
`freeSlug_free` says that the numbering finds a free slug.
-/

namespace PmSaas

open Table JsString

/-! ### The Prisma calls -/

/-- `user.findUnique({ where: { email } })`. -/
def Db.findUserByEmail (email : JsString) (db : Db) : Option User :=
  db.users.find? (·.email == email)

/-- `user.create`. -/
def Db.createUser (row : User) (db : Db) : Except Exn (User × Db) :=
  if db.users.any (fun u => u.id == row.id || u.email == row.email) then
    .error (.prisma .uniqueConstraint)
  else .ok (row, { db with users := db.users ++ [row] })

/-- `organization.findUnique({ where: { slug } })`, as the code asks it: is the slug taken? -/
def Db.slugTaken (slug : JsString) (db : Db) : Bool := db.organizations.any (·.slug == slug)

/-- The rows a new organization comes with. -/
structure NewOrganization where
  organization : Organization
  membership : Membership
  subscription : Subscription

/-- `data: { name, slug, memberships: { create: { userId, role: 'OWNER' } }, subscription: … }`. -/
def newOrganization (userId name slug : JsString) (g : Gen) : NewOrganization where
  organization := ⟨(g.cuid 0).val, slug, name, g.now, g.now⟩
  membership := ⟨(g.cuid 1).val, userId, (g.cuid 0).val, .OWNER, g.now⟩
  subscription :=
    ⟨(g.cuid 2).val, (g.cuid 0).val, none, none, .FREE, .ACTIVE, 1, none, false, g.now⟩

def Db.insertOrganization (new : NewOrganization) (db : Db) : Db :=
  { db with
    organizations := db.organizations ++ [new.organization]
    memberships := db.memberships ++ [new.membership]
    subscriptions := db.subscriptions ++ [new.subscription] }

/-- `organization.create` with its nested membership and subscription. -/
def Db.createOrganization (new : NewOrganization) (db : Db) : Except Exn (Organization × Db) :=
  if db.organizations.any (fun o =>
        o.id == new.organization.id || o.slug == new.organization.slug) ||
      db.memberships.any (·.id == new.membership.id) ||
      db.subscriptions.any (·.id == new.subscription.id) then
    .error (.prisma .uniqueConstraint)
  else if !db.users.any (·.id == new.membership.userId) then .error (.prisma .foreignKey)
  else .ok (new.organization, db.insertOrganization new)

theorem Db.createOrganization_ok {new : NewOrganization} {db db' : Db} {o : Organization}
    (h : db.createOrganization new = .ok (o, db')) :
    o = new.organization ∧ db' = db.insertOrganization new ∧
      (∀ o' ∈ db.organizations, o'.id ≠ new.organization.id ∧ o'.slug ≠ new.organization.slug) ∧
      (∀ m ∈ db.memberships, m.id ≠ new.membership.id) ∧
      ∃ u ∈ db.users, u.id = new.membership.userId := by
  unfold Db.createOrganization at h
  split at h
  · cases h
  · rename_i huniq
    split at h
    · cases h
    · rename_i hfk
      simp only [Bool.or_eq_true, not_or, List.any_eq_true, not_exists, not_and, beq_iff_eq]
        at huniq
      cases h
      exact ⟨rfl, rfl, huniq.1.1, huniq.1.2, by simpa using hfk⟩

theorem Db.createOrganization_subscriptions {new : NewOrganization} {db db' : Db} {o : Organization}
    (h : db.createOrganization new = .ok (o, db')) :
    ∀ s ∈ db.subscriptions, s.id ≠ new.subscription.id := by
  unfold Db.createOrganization at h
  split at h
  · cases h
  · rename_i huniq
    simp only [Bool.or_eq_true, not_or, List.any_eq_true, not_exists, not_and, beq_iff_eq] at huniq
    exact huniq.2

theorem Db.createUser_ok {row u : User} {db db' : Db} (h : db.createUser row = .ok (u, db')) :
    u = row ∧ db' = { db with users := db.users ++ [row] } ∧ ∀ v ∈ db.users, v.id ≠ row.id := by
  unfold Db.createUser at h
  split at h
  · cases h
  · rename_i huniq
    simp only [List.any_eq_true, Bool.or_eq_true, beq_iff_eq, not_exists, not_and, not_or] at huniq
    cases h
    exact ⟨rfl, rfl, fun v hv => (huniq v hv).1⟩

/-! ### Slugs -/

/-- `[a-z0-9]`. -/
def isSlugUnit (c : CodeUnit) : Bool :=
  (97 ≤ c.val && c.val ≤ 122) || (48 ≤ c.val && c.val ≤ 57)

/-- `.replace(/[^a-z0-9]+/g, '-')`. -/
def dashRuns (s : JsString) : JsString := replaceRuns isSlugUnit 45 false s

/-- `.replace(/^-+|-+$/g, '')`. -/
def stripDashes (s : JsString) : JsString := (s.dropWhile (· == 45)).rdropWhile (· == 45)

def slugify (input : JsString) : JsString :=
  (stripDashes (dashRuns (trim (toLowerCase input)))).take 40

/-- The `i`-th slug the loop of `createOrgForUser` tries. -/
def slugCandidate (base : JsString) (i : ℕ) : JsString :=
  if i = 0 then base else base ++ js "-" ++ decimal i

/-- The loop of `createOrgForUser` from its `i`-th turn on. -/
def slugLoop (base : JsString) (db : Db) : ℕ → ℕ → JsString
  | 0, i => slugCandidate base i
  | fuel + 1, i =>
      if db.slugTaken (slugCandidate base i) then slugLoop base db fuel (i + 1)
      else slugCandidate base i

/-- The slug the loop ends with: every organization can take one candidate away. -/
def freeSlug (base : JsString) (db : Db) : JsString := slugLoop base db db.organizations.length 0

theorem slugCandidate_injective (base : JsString) : Function.Injective (slugCandidate base) := by
  have hlonger : ∀ i, i ≠ 0 → base ≠ base ++ js "-" ++ decimal i := by
    intro i _ h
    have hlen := congrArg List.length h
    simp [js, utf16] at hlen
  intro i j h
  by_cases hi : i = 0
  · by_cases hj : j = 0
    · rw [hi, hj]
    · rw [slugCandidate, if_pos hi, slugCandidate, if_neg hj] at h
      exact absurd h (hlonger j hj)
  · by_cases hj : j = 0
    · rw [slugCandidate, if_neg hi, slugCandidate, if_pos hj] at h
      exact absurd h.symm (hlonger i hi)
    · rw [slugCandidate, if_neg hi, slugCandidate, if_neg hj] at h
      exact decimal_injective hi hj (List.append_cancel_left h)

/-- The loop stops at a free candidate or has found all before its last turn taken. -/
theorem slugLoop_spec (base : JsString) (db : Db) (fuel i : ℕ)
    (htaken : ∀ j < i, db.slugTaken (slugCandidate base j) = true) :
    db.slugTaken (slugLoop base db fuel i) = false ∨
      ∀ j ≤ i + fuel, db.slugTaken (slugCandidate base j) = true := by
  induction fuel generalizing i with
  | zero =>
      cases hi : db.slugTaken (slugCandidate base i) with
      | false => exact .inl hi
      | true =>
          right
          intro j hj
          rcases Nat.lt_or_eq_of_le hj with hj | rfl
          · exact htaken j hj
          · exact hi
  | succ fuel ih =>
      rw [slugLoop]
      split
      · rename_i hi
        have hnext := ih (i + 1) fun j hj => by
          rcases Nat.lt_or_eq_of_le (Nat.le_of_lt_succ hj) with hj | rfl
          · exact htaken j hj
          · exact hi
        rw [show i + (fuel + 1) = i + 1 + fuel from by omega]
        exact hnext
      · rename_i hi
        exact .inl (by simpa using hi)

/-- **The loop of `createOrgForUser` finds a free slug.** -/
theorem freeSlug_free (base : JsString) (db : Db) : db.slugTaken (freeSlug base db) = false := by
  rcases slugLoop_spec base db db.organizations.length 0 (by simp) with hfree | hall
  · exact hfree
  · -- more distinct candidates taken than there are organizations
    exfalso
    have hsub : (List.range (db.organizations.length + 1)).map (slugCandidate base) ⊆
        db.organizations.map Organization.slug := by
      intro slug hslug
      obtain ⟨j, hj, rfl⟩ := List.mem_map.1 hslug
      have hj' := hall j (by simpa [Nat.lt_succ_iff] using hj)
      obtain ⟨o, ho, heq⟩ := List.any_eq_true.1 hj'
      exact List.mem_map.2 ⟨o, ho, by simpa using heq⟩
    have hnd : ((List.range (db.organizations.length + 1)).map (slugCandidate base)).Nodup :=
      List.nodup_range.map (slugCandidate_injective base)
    have hlen := (List.subperm_of_subset hnd hsub).length_le
    simp at hlen

/-! ### The service -/

namespace AuthService

/-- `createOrgForUser`. -/
def createOrgForUser (userId name : JsString) (g : Gen) : Service Unit := do
  let base := if slugify name = [] then js "org" else slugify name
  let slug ← Service.query (freeSlug base)
  let org ← Service.exec (Db.createOrganization (newOrganization userId name slug g))
  record
    { organizationId := org.id
      actorId := some userId
      action := "org.created"
      entityType := "Organization"
      entityId := org.id
      metadata := some [("slug", .str slug), ("name", .str name)] }
    (g.cuid 3) g.now

/-- The row `register` inserts. -/
def newUser (input : RegisterInput) (g : Gen) : User where
  id := (g.cuid 0).val
  email := input.email
  passwordHash := some (Bcrypt.hash input.password)
  name := input.name
  avatarUrl := none
  createdAt := g.now
  updatedAt := g.now
  emailOnAssigned := true
  emailOnMentioned := true
  emailOnComment := true

def register (env : Env) (input : RegisterInput) (device : DeviceInfo) (g : Gen) :
    Service (IssuedTokens × JsString) := do
  let existing ← Service.query (Db.findUserByEmail input.email)
  Service.throwIf existing.isSome (.conflict (js "Email already registered"))
  let user ← Service.exec (Db.createUser (newUser input g))
  match truthy input.orgName with
  | some orgName => createOrgForUser user.id orgName (g.skip 1)
  | none => pure ()
  let tokens ← TokenService.issueForUser env ⟨user.id, user.email⟩ device (g.skip 5)
  pure (tokens, user.id)

def login (env : Env) (input : LoginInput) (device : DeviceInfo) (g : Gen) :
    Service (IssuedTokens × JsString) := do
  let user ← Service.query (Db.findUserByEmail input.email)
  -- An unknown user or one without a password compares against a hash nothing matches.
  let user ← Service.orThrow
    (user.filter fun u => u.passwordHash.any (Bcrypt.compare input.password))
    (.unauthorized (js "Invalid credentials"))
  let tokens ← TokenService.issueForUser env ⟨user.id, user.email⟩ device g
  pure (tokens, user.id)

def refresh (env : Env) (token : JsString) (device : DeviceInfo) (g : Gen) :
    Service IssuedTokens :=
  TokenService.rotate env token device g

def logout (env : Env) (token : Option JsString) (g : Gen) : Service Unit :=
  match truthy token with
  | some token => TokenService.revoke env token g
  | none => pure ()

/-! ### What each method can do -/

/-- `createOrgForUser` throws and changes nothing, or the organization is created. -/
theorem createOrgForUser_cases (userId name : JsString) (g : Gen) (w : World) :
    (createOrgForUser userId name g w).2 = w ∨
    ∃ slug org db, w.db.createOrganization (newOrganization userId name slug g) = .ok (org, db) ∧
      Aftermath org.id { w with db := db } (createOrgForUser userId name g w).2 := by
  rw [createOrgForUser, Service.query_bind, Service.exec_bind]
  generalize freeSlug (if slugify name = [] then js "org" else slugify name) w.db = slug
  cases hc : w.db.createOrganization (newOrganization userId name slug g) with
  | error e => exact .inl rfl
  | ok r => exact .inr ⟨slug, r.1, r.2, hc, .recorded ..⟩

/-- The part of `register` after the user is created. -/
theorem register_finish (env : Env) (user : User) (device : DeviceInfo) (g : Gen) (w : World)
    (x : Service Unit) :
    ∃ tokens, (((do
      x
      let tokens ← TokenService.issueForUser env ⟨user.id, user.email⟩ device g
      pure (tokens, user.id)) : Service (IssuedTokens × JsString)) w).2 =
        TokenService.withTokens (x w).2 tokens := by
  rw [Service.bind_apply]
  rcases hx : x w with ⟨_ | _, w'⟩
  · exact ⟨w'.db.refreshTokens, rfl⟩
  · obtain ⟨tokens, h⟩ := TokenService.issueForUser_frame env ⟨user.id, user.email⟩ device g w'
    refine ⟨tokens, ?_⟩
    simp only [Service.bind_apply]
    rw [← h]
    rcases TokenService.issueForUser env ⟨user.id, user.email⟩ device g w' with ⟨_ | _, w''⟩ <;> rfl

/-- `register` throws and changes nothing, or creates the user, at most one organization, and
possibly a token. -/
theorem register_cases (env : Env) (input : RegisterInput) (device : DeviceInfo) (g : Gen)
    (w : World) :
    (register env input device g w).2 = w ∨
    ∃ db w' tokens, w.db.createUser (newUser input g) = .ok (newUser input g, db) ∧
      (w' = { w with db := db } ∨ ∃ name slug org db',
        db.createOrganization (newOrganization (newUser input g).id name slug (g.skip 1)) =
          .ok (org, db') ∧
        Aftermath org.id { w with db := db' } w') ∧
      (register env input device g w).2 = TokenService.withTokens w' tokens := by
  rw [register, Service.query_bind, Service.throwIf_bind]
  split
  · exact .inl rfl
  · rw [Service.exec_bind]
    cases hu : w.db.createUser (newUser input g) with
    | error e => exact .inl rfl
    | ok r =>
        obtain ⟨user, db⟩ := r
        obtain ⟨rfl, -, -⟩ := Db.createUser_ok hu
        right
        cases truthy input.orgName with
        | none =>
            obtain ⟨tokens, h⟩ := register_finish env (newUser input g) device (g.skip 5)
              { w with db := db } (pure ())
            exact ⟨db, { w with db := db }, tokens, rfl, .inl rfl, h⟩
        | some orgName =>
            obtain ⟨tokens, h⟩ := register_finish env (newUser input g) device (g.skip 5)
              { w with db := db } (createOrgForUser (newUser input g).id orgName (g.skip 1))
            refine ⟨db, _, tokens, rfl, ?_, h⟩
            rcases createOrgForUser_cases (newUser input g).id orgName (g.skip 1)
              { w with db := db } with hsame | ⟨slug, org, db', hc, hafter⟩
            · exact .inl hsame
            · exact .inr ⟨orgName, slug, org, db', hc, hafter⟩

/-- `login` writes refresh tokens only. -/
theorem login_frame (env : Env) (input : LoginInput) (device : DeviceInfo) (g : Gen) (w : World) :
    ∃ tokens, (login env input device g w).2 = TokenService.withTokens w tokens := by
  rw [login, Service.query_bind, Service.orThrow_bind]
  cases (w.db.findUserByEmail input.email).filter
      fun u => u.passwordHash.any (Bcrypt.compare input.password) with
  | none => exact ⟨w.db.refreshTokens, rfl⟩
  | some user =>
      obtain ⟨tokens, h⟩ := TokenService.issueForUser_frame env ⟨user.id, user.email⟩ device g w
      refine ⟨tokens, ?_⟩
      simp only [Service.bind_apply]
      rw [← h]
      rcases TokenService.issueForUser env ⟨user.id, user.email⟩ device g w with ⟨_ | _, w'⟩ <;> rfl

/-- `logout` writes refresh tokens only. -/
theorem logout_frame (env : Env) (token : Option JsString) (g : Gen) (w : World) :
    ∃ tokens, (logout env token g w).2 = TokenService.withTokens w tokens := by
  unfold logout
  cases truthy token with
  | none => exact ⟨w.db.refreshTokens, rfl⟩
  | some token => exact TokenService.revoke_frame env token g w

end AuthService

end PmSaas
