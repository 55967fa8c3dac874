import PmSaas.Api.Referential
import PmSaas.Api.Refusals
import PmSaas.Api.TenantFrame

/-!
# Where a role comes from

A member of an organization founded it, was added by somebody who might invite, was given the role
by somebody who might change roles, or accepted an invite that somebody who might invite had sent to
the same address.  `Authority` is such a history, from the founder on.  Every grant in it is a
request that was answered with success, made by a member of that organization whose role had the
permission at that time and who has a history of their own.

`member_authority`: every membership has one, after every run.
-/

namespace PmSaas

open Table JsString TransitionSystem

/-- What a member must be permitted to use the route. -/
def TenantWrite.permission : TenantWrite → Permission
  | .createIssue _ _ => .issueCreate
  | .updateIssue _ _ | .moveIssue _ _ => .issueUpdate
  | .removeIssue _ => .issueDelete
  | .createProject _ => .projectCreate
  | .addMember _ _ => .memberInvite
  | .updateMemberRole _ _ => .memberUpdateRole
  | .removeMember _ => .memberRemove
  | .presign _ _ | .confirm _ _ | .removeAttachment _ _ _ => .attachmentUpload
  | .createCheckout _ _ => .orgManageBilling

/-- The decorators ask for it. -/
theorem TenantWrite.permission_mem_metadata (call : TenantWrite) :
    call.permission ∈ call.metadata.permissions := by
  cases call <;> exact .head _

/-- A membership as the guards see it. -/
structure Position where
  userId : JsString
  organizationId : JsString
  role : Role

def Membership.position (m : Membership) : Position := ⟨m.userId, m.organizationId, m.role⟩

/-- After the calls the grantor, a member of the organization with the slug, may make the request,
makes it, and it is answered without an error. -/
structure Grant (env : ApiEnv) (calls : List (ApiCall × Gen)) (w : World) (grantor : Membership)
    (actor : AuthUser) (orgSlug : JsString) (write : TenantWrite) (g : Gen) : Prop where
  run : Run (ApiStep env) World.empty calls w
  member : w.db.findMembershipBySlug actor.sub orgSlug = some grantor
  allowed : can grantor.role write.permission = true
  answered : ((ApiCall.tenant actor orgSlug write).serve env g w).1 = .ok ()

/-- After the calls the request creates the organization. -/
structure FoundingCall (env : ApiEnv) (calls : List (ApiCall × Gen)) (w : World) (call : ApiCall)
    (g : Gen) (organizationId : JsString) : Prop where
  run : Run (ApiStep env) World.empty calls w
  unused : ∀ o ∈ w.db.organizations, o.id ≠ organizationId
  created : ∃ o ∈ (call.exec env g w).db.organizations, o.id = organizationId

/-- The calls that gave somebody a position. -/
inductive Authority (env : ApiEnv) : List (ApiCall × Gen) → Position → Prop
  | later {calls : List (ApiCall × Gen)} {position : Position} (h : Authority env calls position)
      (call : ApiCall × Gen) : Authority env (calls ++ [call]) position
  /-- `OrgsService.create`. -/
  | founded {calls : List (ApiCall × Gen)} {w : World} {user : AuthUser} {input : CreateOrgInput}
      {g : Gen} {organizationId : JsString}
      (founding : FoundingCall env calls w (.createOrg user input) g organizationId)
      (answered : ((ApiCall.createOrg user input).serve env g w).1 = .ok ()) :
      Authority env (calls ++ [(.createOrg user input, g)]) ⟨user.sub, organizationId, .OWNER⟩
  /-- `register` with an organization: the account is new, too. -/
  | registered {calls : List (ApiCall × Gen)} {w : World} {input : RegisterInput}
      {device : DeviceInfo} {g : Gen} {organizationId userId : JsString}
      (founding : FoundingCall env calls w (.register input device) g organizationId)
      (unused : ∀ u ∈ w.db.users, u.id ≠ userId)
      (account : ∃ u ∈ ((ApiCall.register input device).exec env g w).db.users,
        u.id = userId ∧ u.email = input.email) :
      Authority env (calls ++ [(.register input device, g)]) ⟨userId, organizationId, .OWNER⟩
  /-- `addMember` of an account. -/
  | added {calls : List (ApiCall × Gen)} {w : World} {grantor : Membership} {actor : AuthUser}
      {orgSlug email : JsString} {role : GrantableRole} {g : Gen} {account : User}
      (grant : Grant env calls w grantor actor orgSlug (.addMember email role) g)
      (h : Authority env calls grantor.position)
      (found : w.db.findUserByEmail (JsString.toLowerCase email) = some account) :
      Authority env (calls ++ [(.tenant actor orgSlug (.addMember email role), g)])
        ⟨account.id, grantor.organizationId, role.val⟩
  /-- `updateMemberRole`. -/
  | changed {calls : List (ApiCall × Gen)} {w : World} {grantor : Membership} {actor : AuthUser}
      {orgSlug userId : JsString} {role : GrantableRole} {g : Gen}
      (grant : Grant env calls w grantor actor orgSlug (.updateMemberRole userId role) g)
      (h : Authority env calls grantor.position) :
      Authority env (calls ++ [(.tenant actor orgSlug (.updateMemberRole userId role), g)])
        ⟨userId, grantor.organizationId, role.val⟩
  /-- `acceptInvite` of the token that `addMember` sent to the address, when nobody had an account
  with it. -/
  | accepted {before between : List (ApiCall × Gen)} {w w' : World} {grantor : Membership}
      {actor user : AuthUser} {orgSlug email : JsString} {role : GrantableRole} {g g' : Gen}
      (grant : Grant env before w grantor actor orgSlug (.addMember email role) g)
      (h : Authority env before grantor.position)
      (unknown : w.db.findUserByEmail (JsString.toLowerCase email) = none)
      (addressee : JsString.toLowerCase email = JsString.toLowerCase user.email)
      (run : Run (ApiStep env) World.empty
        (before ++ (.tenant actor orgSlug (.addMember email role), g) :: between) w')
      (answered : ((ApiCall.acceptInvite user (g.random 0)).serve env g' w').1 = .ok ()) :
      Authority env
        (before ++ (.tenant actor orgSlug (.addMember email role), g) :: between ++
          [(.acceptInvite user (g.random 0), g')])
        ⟨user.sub, grantor.organizationId, role.val⟩

/-- Somebody who might invite sent the invite. -/
def Invited (env : ApiEnv) (calls : List (ApiCall × Gen)) (invite : Invite) : Prop :=
  ∃ before after w grantor actor orgSlug email role g,
    calls = before ++ (.tenant actor orgSlug (.addMember email role), g) :: after ∧
    Grant env before w grantor actor orgSlug (.addMember email role) g ∧
    Authority env before grantor.position ∧
    w.db.findUserByEmail (JsString.toLowerCase email) = none ∧
    grantor.organizationId = invite.organizationId ∧ role.val = invite.role ∧
    JsString.toLowerCase email = invite.email ∧
    OrgsService.hashToken (g.random 0) = invite.tokenHash

/-- Every membership and every invite has its history. -/
structure Granted (env : ApiEnv) (calls : List (ApiCall × Gen)) (db : Db) : Prop where
  members : ∀ m ∈ db.memberships, Authority env calls m.position
  invites : ∀ i ∈ db.invites, Invited env calls i

theorem Invited.later {env : ApiEnv} {calls : List (ApiCall × Gen)} {i : Invite}
    (h : Invited env calls i) (call : ApiCall × Gen) : Invited env (calls ++ [call]) i := by
  obtain ⟨before, after, w, grantor, actor, orgSlug, email, role, g, rfl, hrest⟩ := h
  exact ⟨before, after ++ [call], w, grantor, actor, orgSlug, email, role, g, by simp, hrest⟩

/-- Whoever holds the token of an invite to their address may take the position. -/
theorem Invited.authority {env : ApiEnv} {calls : List (ApiCall × Gen)} {w : World} {i : Invite}
    (h : Invited env calls i) {user : AuthUser} {token : JsString} {g : Gen}
    (hhash : i.tokenHash = OrgsService.hashToken token)
    (haddressee : JsString.toLowerCase i.email = JsString.toLowerCase user.email)
    (hrun : Run (ApiStep env) World.empty calls w)
    (hanswered : ((ApiCall.acceptInvite user token).serve env g w).1 = .ok ()) :
    Authority env (calls ++ [(.acceptInvite user token, g)])
      ⟨user.sub, i.organizationId, i.role⟩ := by
  obtain ⟨before, after, w₀, grantor, actor, orgSlug, email, role, g₀, rfl, hgrant, hauthority,
    hunknown, horg, hrole, hemail, htoken⟩ := h
  have hsame : g₀.random 0 = token := congrArg Sha256.preimage (htoken.trans hhash)
  subst hsame
  rw [← horg, ← hrole]
  refine .accepted hgrant hauthority hunknown ?_ hrun hanswered
  rw [← haddressee, ← hemail, toLowerCase_toLowerCase]

/-! ### What each write does to the histories -/

namespace Granted

variable {env : ApiEnv} {calls : List (ApiCall × Gen)} {db db' : Db}

/-- Other tables are written. -/
theorem congr (h : Granted env calls db) (hm : db'.memberships = db.memberships)
    (hi : db'.invites = db.invites) : Granted env calls db' := by
  constructor
  · rw [hm]
    exact h.members
  · rw [hi]
    exact h.invites

theorem later (h : Granted env calls db) (call : ApiCall × Gen) :
    Granted env (calls ++ [call]) db where
  members m hm := (h.members m hm).later call
  invites i hi := (h.invites i hi).later call

theorem after {organizationId : JsString} {w w' : World} (h : Granted env calls w.db)
    (ha : Aftermath organizationId w w') : Granted env calls w'.db :=
  h.congr ha.memberships ha.invites

theorem createOrganization (h : Granted env calls db) {userId name slug : JsString} {g : Gen}
    {org : Organization}
    (hc : db.createOrganization (newOrganization userId name slug g) = .ok (org, db'))
    (hnew : Authority env calls ⟨userId, (g.cuid 0).val, .OWNER⟩) : Granted env calls db' := by
  obtain ⟨-, rfl, -⟩ := Db.createOrganization_ok hc
  refine ⟨fun m hm => ?_, h.invites⟩
  rcases List.mem_append.1 hm with hm | hm
  · exact h.members m hm
  · rw [List.mem_singleton.1 hm]
    exact hnew

/-- Some members get a role. -/
theorem setRole (h : Granted env calls db) {p : Membership → Bool} {role : Role}
    (hnew : ∀ m ∈ db.memberships, p m = true →
      Authority env calls ⟨m.userId, m.organizationId, role⟩) :
    Granted env calls { db with
      memberships := updateWhere p (fun m => { m with role := role }) db.memberships } := by
  refine ⟨fun m hm => ?_, h.invites⟩
  obtain ⟨old, hold, rfl⟩ := mem_updateWhere.1 hm
  split
  · rename_i hp
    exact hnew old hold hp
  · exact h.members old hold

theorem upsertMembership (h : Granted env calls db) {userId organizationId : JsString} {role : Role}
    {id : Cuid} {now : Date} {m : Membership}
    (hu : db.upsertMembership userId organizationId role id now = .ok (m, db'))
    (hnew : Authority env calls ⟨userId, organizationId, role⟩) : Granted env calls db' := by
  rcases Db.upsertMembership_ok hu with rfl | ⟨rfl, -⟩
  · refine h.setRole fun m _ hp => ?_
    simp only [Bool.and_eq_true, beq_iff_eq] at hp
    rw [hp.1, hp.2]
    exact hnew
  · refine ⟨fun m hm => ?_, h.invites⟩
    rcases List.mem_append.1 hm with hm | hm
    · exact h.members m hm
    · rw [List.mem_singleton.1 hm]
      exact hnew

theorem upsertInvite (h : Granted env calls db) {row invite : Invite}
    (hu : db.upsertInvite row = .ok (invite, db')) (hnew : Invited env calls row) :
    Granted env calls db' := by
  have hinvites : ∀ i ∈ db'.invites, Invited env calls i := by
    intro i hi
    rcases Db.mem_upsertInvite hu hi with hold | ⟨id, createdAt, rfl⟩
    · exact h.invites i hold
    · exact hnew
  rcases Db.upsertInvite_ok hu with rfl | rfl
  · exact ⟨h.members, hinvites⟩
  · exact ⟨h.members, hinvites⟩

theorem burnInvite (h : Granted env calls db) {id : JsString} {now : Date}
    (hb : db.burnInvite id now = .ok ((), db')) : Granted env calls db' := by
  have hinvites : ∀ i ∈ db'.invites, Invited env calls i := by
    intro i hi
    obtain ⟨old, hold, ⟨-, rfl⟩ | ⟨-, rfl⟩⟩ := Db.mem_burnInvite hb hi
    · exact h.invites i hold
    · exact h.invites old hold
  obtain ⟨_, rfl⟩ := Db.burnInvite_ok hb
  exact ⟨h.members, hinvites⟩

end Granted

/-! ### Runs -/

section Runs

variable {env : ApiEnv} {calls : List (ApiCall × Gen)} {w w' : World}

theorem TenantChange.granted {user : AuthUser} {orgSlug : JsString} {g : Gen} {write : TenantWrite}
    {m : Membership} (hc : TenantChange m.organizationId user.sub g w write w')
    (hrun : Run (ApiStep env) World.empty calls w) (h : Granted env calls w.db)
    (hm : w.db.findMembershipBySlug user.sub orgSlug = some m)
    (hallowed : ∀ p ∈ write.metadata.permissions, can m.role p = true)
    (hanswered : (ApiCall.tenant user orgSlug write).Single →
      ((ApiCall.tenant user orgSlug write).serve env g w).1 = .ok ()) :
    Granted env (calls ++ [(.tenant user orgSlug write, g)]) w'.db := by
  have hgrant : (ApiCall.tenant user orgSlug write).Single →
      Grant env calls w m user orgSlug write g := fun hsingle =>
    ⟨hrun, hm, hallowed _ write.permission_mem_metadata, hanswered hsingle⟩
  have hauthority := h.members m (Db.findMembershipBySlug_some hm).1
  have hlater := h.later (.tenant user orgSlug write, g)
  cases hc with
  | createIssue found committed =>
      obtain ⟨_, _, _, _, hins⟩ := Db.createIssueTx_ok committed
      obtain ⟨-, rfl, -⟩ := Db.createIssue_ok hins
      exact hlater.congr rfl rfl
  | updateIssue found committed =>
      obtain ⟨_, -, -, rfl⟩ := Db.updateIssue_ok committed
      exact hlater.congr rfl rfl
  | moveIssue found dropped committed =>
      obtain ⟨_, -, -, rfl⟩ := Db.updateIssue_ok committed
      exact hlater.congr rfl rfl
  | removeIssue found committed =>
      obtain rfl := Db.deleteIssue_ok committed
      exact hlater.congr rfl rfl
  | createProject committed team =>
      obtain ⟨-, rfl, -⟩ := Db.createProject_ok committed
      exact hlater.congr rfl rfl
  | addMember found committed =>
      exact hlater.upsertMembership committed (.added (hgrant trivial) hauthority found)
  | @invite email role _ _ unknown committed =>
      exact hlater.upsertInvite committed
        ⟨calls, [], w, m, user, orgSlug, email, role, g, rfl, hgrant trivial, hauthority, unknown,
          rfl, rfl, rfl, rfl⟩
  | @updateMemberRole userId role target found notOwner =>
      obtain ⟨htarget, huser, horg⟩ := Db.findMembership_some found
      have hids := (tenantSound_of_run .empty hrun).membershipIds
      refine hlater.setRole fun old hold hp => ?_
      obtain rfl := hids.eq_of_key_eq hold htarget (beq_iff_eq.1 hp)
      rw [huser, horg]
      exact .changed (hgrant trivial) hauthority
  | removeMember found notOwner =>
      exact ⟨fun m' hm' => hlater.members m' (mem_deleteWhere.1 hm').1, hlater.invites⟩
  | confirm found key committed =>
      obtain ⟨-, rfl, -⟩ := Db.createAttachment_ok committed
      exact hlater.congr rfl rfl
  | removeAttachment found attachment =>
      split
      · exact hlater.congr rfl rfl
      · exact hlater.congr rfl rfl
  | createCheckout committed =>
      rw [Db.setCustomer_ok committed]
      exact hlater.congr rfl rfl

/-- The organization that a call creates, and its side effects keep. -/
theorem FoundingCall.of_createOrganization {call : ApiCall} {g g' : Gen} {db db' : Db}
    {userId name slug organizationId : JsString} {org : Organization}
    (hrun : Run (ApiStep env) World.empty calls w) (hsame : db.organizations = w.db.organizations)
    (hc : db.createOrganization (newOrganization userId name slug g') = .ok (org, db'))
    (hdb : w'.db.organizations = db'.organizations)
    (hafter : Aftermath organizationId w' (call.exec env g w)) :
    FoundingCall env calls w call g (g'.cuid 0).val := by
  obtain ⟨-, rfl, hfresh, -⟩ := Db.createOrganization_ok hc
  refine ⟨hrun, fun o ho => (hfresh o (hsame ▸ ho)).1, ?_⟩
  rw [hafter.organizations, hdb]
  exact ⟨_, List.mem_append_right _ (List.mem_singleton_self _), rfl⟩

theorem ApiChange.granted {call : ApiCall} {g : Gen} {organizationId : JsString}
    (hc : ApiChange env g w call w') (hafter : Aftermath organizationId w' (call.exec env g w))
    (hrun : Run (ApiStep env) World.empty calls w) (h : Granted env calls w.db)
    (hanswered : call.Single → (call.serve env g w).1 = .ok ()) :
    Granted env (calls ++ [(call, g)]) w'.db := by
  have hlater := h.later (call, g)
  cases hc with
  | register committed =>
      obtain ⟨-, rfl, -⟩ := Db.createUser_ok committed
      exact hlater.congr rfl rfl
  | @registerOrg input device _ _ _ _ _ _ committed owned =>
      obtain ⟨-, rfl, hunused⟩ := Db.createUser_ok committed
      have hadded : Granted env (calls ++ [(.register input device, g)])
          { w.db with users := w.db.users ++ [AuthService.newUser input g] } := hlater.congr rfl rfl
      have hsame : ({ w.db with
          users := w.db.users ++ [AuthService.newUser input g] } : Db).organizations =
            w.db.organizations := rfl
      have hfounding : FoundingCall env calls w (.register input device) g
          ((g.skip 1).cuid 0).val := .of_createOrganization hrun hsame owned rfl hafter
      refine (hadded.createOrganization owned
        (.registered hfounding hunused ?_)).congr rfl rfl
      obtain ⟨-, rfl, -⟩ := Db.createOrganization_ok owned
      obtain ⟨⟨logs, -, hdb⟩, -⟩ := hafter
      rw [hdb]
      exact ⟨_, List.mem_append_right _ (List.mem_singleton_self _), rfl, rfl⟩
  | login => exact hlater.congr rfl rfl
  | refresh => exact hlater.congr rfl rfl
  | logout => exact hlater.congr rfl rfl
  | createOrg committed =>
      exact hlater.createOrganization committed
        (.founded (.of_createOrganization hrun rfl committed rfl hafter) (hanswered trivial))
  | acceptInvite found pending addressee committed burnt =>
      have hinvited := h.invites _ (List.mem_of_find?_eq_some found)
      exact (hlater.upsertMembership committed
        (hinvited.authority (by simpa using List.find?_some found) addressee hrun
          (hanswered trivial))).burnInvite burnt
  | tenant member allowed change => exact change.granted hrun h member allowed hanswered
  | markRead user ids => exact hlater.congr rfl rfl
  | markAllRead user => exact hlater.congr rfl rfl
  | updatePrefs committed =>
      unfold Db.updatePrefs at committed
      split at committed
      · cases committed
      · cases committed
        exact hlater.congr rfl rfl
  | webhook known customer committed =>
      rw [Db.reconcile_ok committed]
      exact hlater.congr rfl rfl
  | upload url => exact hlater
  | work queued => exact hlater.congr rfl rfl

theorem granted_of_run (hrun : Run (ApiStep env) World.empty calls w) : Granted env calls w.db := by
  induction hrun with
  | nil =>
      exact ⟨fun _ h => absurd h List.not_mem_nil, fun _ h => absurd h List.not_mem_nil⟩
  | @snoc calls w w' call hrun hstep ih =>
      obtain ⟨call, g⟩ := call
      rw [show w' = call.exec env g w from hstep]
      rcases call.exec_cases env g w with hsame | ⟨w'', organizationId, hchange, hafter⟩
      · rw [hsame]
        exact ih.later _
      · by_cases hfailed : call.Single ∧ ∃ e, (call.serve env g w).1 = .error e
        · -- a request that fails after its checks has not written
          obtain ⟨hsingle, e, he⟩ := hfailed
          have hrefs := referential_of_run .empty hrun
          have hsame : call.exec env g w = w := by
            have hclean : (call.serve env g).Clean (fun _ => True) w :=
              ApiCall.clean hsingle fun _ m hm => (hrefs.members m hm).2
            rw [← call.serve_world]
            exact hclean e he trivial
          rw [hsame]
          exact ih.later _
        · refine (hchange.granted hafter hrun ih fun hsingle => ?_).after hafter
          rcases hanswer : (call.serve env g w).1 with e | u
          · exact absurd ⟨hsingle, e, hanswer⟩ hfailed
          · rfl

/-- **Every membership goes back to the founder.** -/
theorem member_authority (hrun : Run (ApiStep env) World.empty calls w) {m : Membership}
    (hm : m ∈ w.db.memberships) : Authority env calls ⟨m.userId, m.organizationId, m.role⟩ :=
  (granted_of_run hrun).members m hm

end Runs

/-! ### Ann invites Bob -/

namespace Authority.Samples

open TokenService.Samples (device draw)

def env : ApiEnv := ⟨TokenService.Samples.env, js "http://localhost:3000", [], [], []⟩

def ann : AuthUser := ⟨Demo.userId.val, js "ann@demo.test"⟩
def bob : AuthUser := ⟨Demo.secondId.val, js "bob@demo.test"⟩

def signUp (email : JsString) : ApiCall :=
  .register ⟨email, js "password", js "Somebody", none⟩ device

def calls : List (ApiCall × Gen) :=
  [(signUp ann.email, draw Demo.userId (js "t0")),
    (.createOrg ann ⟨js "Demo", js "demo"⟩, draw Demo.orgId (js "t0")),
    (.tenant ann (js "demo") (.addMember bob.email ⟨.MEMBER, member_ne_owner⟩),
      draw Demo.firstId (js "t1")),
    (signUp bob.email, draw Demo.secondId (js "t2")),
    (.acceptInvite bob (js "t1"), draw Demo.thirdId (js "t3"))]

def world : World := calls.foldl (fun w call => call.1.exec env call.2 w) World.empty

theorem world_run : Run (ApiStep env) World.empty calls world :=
  ((((Run.nil.snoc rfl).snoc rfl).snoc rfl).snoc rfl).snoc rfl

end Authority.Samples

open Authority.Samples in
theorem member_authority_bob :
    Authority env calls ⟨Demo.secondId.val, Demo.orgId.val, .MEMBER⟩ := by
  have hbob : ⟨Demo.thirdId.val, Demo.secondId.val, Demo.orgId.val, .MEMBER, 0⟩ ∈
      world.db.memberships := by decide
  exact member_authority world_run hbob

end PmSaas
