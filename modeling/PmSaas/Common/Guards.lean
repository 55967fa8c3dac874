import PmSaas.Common.Service
import PmSaas.Types.Schemas

/-!
# `tenant.guard.ts` and `rbac.guard.ts`

`TenantGuard` turns an organization slug into an organization id by way of the caller's
membership, and `RbacGuard` checks the role of that membership against the metadata of the route.
Services only ever see the organization id the first guard stamped on the request.
-/

namespace PmSaas

/-- What `TenantGuard` stamps onto the request. -/
structure TenantContext where
  organizationId : JsString
  membershipId : JsString
  role : Role
  deriving DecidableEq, Repr

/-- `membership.findFirst({ where: { userId, organization: { slug } } })`. -/
def Db.findMembershipBySlug (userId orgSlug : JsString) (db : Db) : Option Membership :=
  db.memberships.find? fun m => m.userId == userId &&
    db.organizations.any fun o => o.id == m.organizationId && o.slug == orgSlug

/-- `canActivate` of `TenantGuard`: `param` is `req.params.orgSlug`, `header` is `x-org-slug`. -/
def TenantGuard.canActivate (user : Option AuthUser) (param header : Option JsString) :
    Service TenantContext := do
  let user ← Service.orThrow user (.forbidden (js "Unauthenticated"))
  let orgSlug ← Service.orThrow (truthy (param.or header))
    (.badRequest (js "Missing org context (orgSlug param or x-org-slug header)"))
  let membership ← Service.query (Db.findMembershipBySlug user.sub orgSlug)
  let membership ← Service.orThrow membership
    (.forbidden (js "Not a member of this organization"))
  pure ⟨membership.organizationId, membership.id, membership.role⟩

/-- The metadata `@RequirePermission` and `@Roles` leave on a handler. -/
structure RouteMetadata where
  permissions : List Permission := []
  roles : List Role := []

/-- `names.join(separator)`. -/
def joined (separator : String) (names : List JsString) : JsString :=
  (js separator).intercalate names

/-- `canActivate` of `RbacGuard` for a request with the role `TenantGuard` resolved. -/
def RbacGuard.canActivate (metadata : RouteMetadata) (role : Option Role) : Except Exn Unit :=
  if metadata.permissions.isEmpty && metadata.roles.isEmpty then .ok ()
  else match role with
    | none => .error (.forbidden
        (js "No role in request context — TenantGuard must run first"))
    | some role =>
        if !metadata.roles.isEmpty && !metadata.roles.any (atLeast role) then
          .error (.forbidden
            (js "Requires role: " ++ joined " or " (metadata.roles.map Role.text)))
        else if metadata.permissions.any (fun p => !can role p) then
          .error (.forbidden (js "Missing permission: " ++
            joined ", " ((metadata.permissions.filter fun p => !can role p).map Permission.text)))
        else .ok ()

/-- The guards of a tenant-scoped controller, then its handler. -/
def tenantScoped {α : Type} (user : AuthUser) (orgSlug : JsString) (metadata : RouteMetadata)
    (handler : JsString → Service α) : Service α := do
  let context ← TenantGuard.canActivate (some user) (some orgSlug) none
  Service.exec fun db => (RbacGuard.canActivate metadata (some context.role)).map fun u => (u, db)
  handler context.organizationId

theorem Db.findMembershipBySlug_some {userId orgSlug : JsString} {db : Db} {m : Membership}
    (h : db.findMembershipBySlug userId orgSlug = some m) :
    m ∈ db.memberships ∧ m.userId = userId ∧
      ∃ o ∈ db.organizations, o.id = m.organizationId ∧ o.slug = orgSlug := by
  have hp := List.find?_some h
  simp only [Bool.and_eq_true, beq_iff_eq, List.any_eq_true] at hp
  exact ⟨List.mem_of_find?_eq_some h, hp.1, hp.2⟩

theorem TenantGuard.canActivate_bind {β : Type} (user : AuthUser) (orgSlug : JsString)
    (k : TenantContext → Service β) (w : World) :
    (TenantGuard.canActivate (some user) (some orgSlug) none >>= k) w =
      if orgSlug = [] then
        (.error (.badRequest (js "Missing org context (orgSlug param or x-org-slug header)")), w)
      else match w.db.findMembershipBySlug user.sub orgSlug with
        | some m => k ⟨m.organizationId, m.id, m.role⟩ w
        | none => (.error (.forbidden (js "Not a member of this organization")), w) := by
  simp only [TenantGuard.canActivate, Service.bind_assoc, Service.orThrow_bind, Option.some_or,
    truthy]
  by_cases hslug : orgSlug = []
  · subst hslug
    rfl
  · simp only [hslug, ne_eq, not_false_eq_true, decide_true, Option.filter_some_pos, if_false,
      Service.bind_assoc, Service.query_bind, Service.orThrow_bind]
    cases w.db.findMembershipBySlug user.sub orgSlug <;> rfl

/-- `RbacGuard` lets a role pass exactly when the matrix carries what the route asks for. -/
theorem RbacGuard.canActivate_ok {metadata : RouteMetadata} {role : Role}
    (h : RbacGuard.canActivate metadata (some role) = .ok ()) :
    ∀ p ∈ metadata.permissions, can role p = true := by
  intro p hp
  unfold RbacGuard.canActivate at h
  split at h
  · rename_i hempty
    simp only [Bool.and_eq_true, List.isEmpty_iff] at hempty
    rw [hempty.1] at hp
    cases hp
  · dsimp only at h
    split at h
    · cases h
    · split at h
      · cases h
      · rename_i hall
        by_contra hno
        exact hall (List.any_eq_true.2 ⟨p, hp, by simpa using hno⟩)

/-- `TenantGuard` lets a request pass with the membership it found. -/
theorem TenantGuard.canActivate_ok {user : AuthUser} {orgSlug : JsString} {w : World}
    {context : TenantContext}
    (h : (TenantGuard.canActivate (some user) (some orgSlug) none w).1 = .ok context) :
    orgSlug ≠ [] ∧ ∃ m, w.db.findMembershipBySlug user.sub orgSlug = some m ∧
      context = ⟨m.organizationId, m.id, m.role⟩ := by
  have hpure := TenantGuard.canActivate_bind user orgSlug pure w
  have hfst : ((TenantGuard.canActivate (some user) (some orgSlug) none >>= pure) w).1 =
      .ok context := by
    rw [Service.bind_apply, ← h]
    rcases TenantGuard.canActivate (some user) (some orgSlug) none w with ⟨_ | _, w'⟩ <;> rfl
  rw [hpure] at hfst
  split at hfst
  · cases hfst
  · rename_i hslug
    refine ⟨hslug, ?_⟩
    cases hm : w.db.findMembershipBySlug user.sub orgSlug with
    | none =>
        rw [hm] at hfst
        cases hfst
    | some m =>
        rw [hm] at hfst
        cases hfst
        exact ⟨m, rfl, rfl⟩

theorem tenantScoped_apply {α : Type} (user : AuthUser) (orgSlug : JsString)
    (metadata : RouteMetadata) (handler : JsString → Service α) (w : World) :
    tenantScoped user orgSlug metadata handler w =
      if orgSlug = [] then
        (.error (.badRequest (js "Missing org context (orgSlug param or x-org-slug header)")), w)
      else match w.db.findMembershipBySlug user.sub orgSlug with
        | some m =>
            match RbacGuard.canActivate metadata (some m.role) with
            | .ok () => handler m.organizationId w
            | .error e => (.error e, w)
        | none => (.error (.forbidden (js "Not a member of this organization")), w) := by
  rw [tenantScoped, TenantGuard.canActivate_bind]
  split
  · rfl
  · cases w.db.findMembershipBySlug user.sub orgSlug with
    | none => rfl
    | some m =>
        simp only [Service.exec_bind]
        cases RbacGuard.canActivate metadata (some m.role) <;> rfl

/-- A tenant-scoped request is answered by a guard without any effect, or the handler runs for the
organization of a membership of the caller whose role carries every permission of the route. -/
theorem tenantScoped_cases {α : Type} (user : AuthUser) (orgSlug : JsString)
    (metadata : RouteMetadata) (handler : JsString → Service α) (w : World) :
    (∃ e, tenantScoped user orgSlug metadata handler w = (.error e, w)) ∨
    ∃ m, w.db.findMembershipBySlug user.sub orgSlug = some m ∧
      (∀ p ∈ metadata.permissions, can m.role p = true) ∧
      tenantScoped user orgSlug metadata handler w = handler m.organizationId w := by
  rw [tenantScoped_apply]
  split
  · exact .inl ⟨_, rfl⟩
  · cases w.db.findMembershipBySlug user.sub orgSlug with
    | none => exact .inl ⟨_, rfl⟩
    | some m =>
        simp only
        cases hr : RbacGuard.canActivate metadata (some m.role) with
        | error e => exact .inl ⟨e, rfl⟩
        | ok u => exact .inr ⟨m, rfl, RbacGuard.canActivate_ok hr, rfl⟩

end PmSaas
