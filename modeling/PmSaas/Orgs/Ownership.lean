import PmSaas.Orgs.OrgsService
import PmSaas.Lib.TransitionSystem

/-!
# Does every organization keep an owner?

Organizations are created with one `OWNER`, and no request can name `OWNER` as a role.
`updateMemberRole` and `removeMember` refuse to touch an owner's row, but the upserts of
`addMember` and `acceptInvite` overwrite the role of whatever row the user already has — an
owner's too (`owner_demoted_by_addMember`).

`owned_of_spared`: in every run in which no upsert hits an owner's row, every organization has an
owner.
-/

namespace PmSaas

open Table JsString TransitionSystem

/-- Every organization has a membership with role `OWNER`. -/
def HasOwner (db : Db) : Prop :=
  ∀ o ∈ db.organizations, ∃ m ∈ db.memberships, m.organizationId = o.id ∧ m.role = .OWNER

instance (db : Db) : Decidable (HasOwner db) := List.decidableBAll ..

/-- The user has no `OWNER` membership in the organization. -/
def NotOwner (userId organizationId : JsString) (db : Db) : Prop :=
  ∀ m ∈ db.memberships, m.userId = userId → m.organizationId = organizationId → m.role ≠ .OWNER

/-! ### The calls -/

inductive OrgCall where
  | create (userId : JsString) (input : CreateOrgInput) (g : Gen)
  | register (input : RegisterInput) (device : DeviceInfo) (g : Gen)
  | addMember (organizationId actorId email : JsString) (role : GrantableRole) (g : Gen)
  | acceptInvite (userId userEmail token : JsString) (g : Gen)
  | updateMemberRole (organizationId actorId targetUserId : JsString) (role : GrantableRole)
      (g : Gen)
  | removeMember (organizationId actorId targetUserId : JsString) (g : Gen)

namespace OrgCall

def exec (env : Env) : OrgCall → World → World
  | .create userId input g, w => (OrgsService.create userId input g w).2
  | .register input device g, w => (AuthService.register env input device g w).2
  | .addMember organizationId actorId email role g, w =>
      (OrgsService.addMember env organizationId actorId email role g w).2
  | .acceptInvite userId userEmail token g, w =>
      (OrgsService.acceptInvite userId userEmail token g w).2
  | .updateMemberRole organizationId actorId targetUserId role g, w =>
      (OrgsService.updateMemberRole organizationId actorId targetUserId role g w).2
  | .removeMember organizationId actorId targetUserId g, w =>
      (OrgsService.removeMember organizationId actorId targetUserId g w).2

/-- The actor is a member whose role carries the permission. -/
def Holds (actorId organizationId : JsString) (permission : Permission) (db : Db) : Prop :=
  ∃ m ∈ db.memberships, m.userId = actorId ∧ m.organizationId = organizationId ∧
    can m.role permission = true

instance (actorId organizationId : JsString) (permission : Permission) (db : Db) :
    Decidable (Holds actorId organizationId permission db) :=
  inferInstanceAs (Decidable (∃ _ ∈ _, _ ∧ _ ∧ _))

/-- The permission a call needs; `create`, `register` and `acceptInvite` need none. -/
def Permitted (db : Db) : OrgCall → Prop
  | .addMember organizationId actorId _ _ _ => Holds actorId organizationId .memberInvite db
  | .updateMemberRole organizationId actorId _ _ _ =>
      Holds actorId organizationId .memberUpdateRole db
  | .removeMember organizationId actorId _ _ => Holds actorId organizationId .memberRemove db
  | _ => True

/-- The upsert a call makes, if it makes one, does not hit the row of an owner. -/
def Spares (db : Db) : OrgCall → Prop
  | .addMember organizationId _ email _ _ =>
      ∀ user ∈ db.findUserByEmail (toLowerCase email), NotOwner user.id organizationId db
  | .acceptInvite userId userEmail token g =>
      ∀ invite ∈ db.findInvite (OrgsService.hashToken token),
        OrgsService.pending g.now invite = true →
        toLowerCase invite.email = toLowerCase userEmail →
        NotOwner userId invite.organizationId db
  | _ => True

end OrgCall

/-! ### What a call writes -/

/-- The tables that the calls are about are the same. -/
structure SameOrgTables (db db' : Db) : Prop where
  users : db'.users = db.users
  organizations : db'.organizations = db.organizations
  memberships : db'.memberships = db.memberships
  invites : db'.invites = db.invites

theorem Aftermath.sameOrgTables {organizationId : JsString} {w w' : World}
    (h : Aftermath organizationId w w') : SameOrgTables w.db w'.db := by
  obtain ⟨logs, _, hdb⟩ := h.db
  rw [hdb]
  exact ⟨rfl, rfl, rfl, rfl⟩

namespace OrgCall

/-- The writes of a call that comes through, apart from audit rows and tokens. -/
inductive Writes (db : Db) : OrgCall → Db → Prop where
  | nothing {call : OrgCall} : Writes db call db
  | created {userId : JsString} {input : CreateOrgInput} {g : Gen} {org : Organization} {db' : Db}
      (h : db.createOrganization (newOrganization userId input.name input.slug g) =
        .ok (org, db')) :
      Writes db (.create userId input g) db'
  | registered {input : RegisterInput} {device : DeviceInfo} {g : Gen} {db' : Db}
      (h : db.createUser (AuthService.newUser input g) = .ok (AuthService.newUser input g, db')) :
      Writes db (.register input device g) db'
  | registeredWith {input : RegisterInput} {device : DeviceInfo} {g : Gen} {name slug : JsString}
      {org : Organization} {db₁ db' : Db}
      (h : db.createUser (AuthService.newUser input g) = .ok (AuthService.newUser input g, db₁))
      (hc : db₁.createOrganization
        (newOrganization (AuthService.newUser input g).id name slug (g.skip 1)) = .ok (org, db')) :
      Writes db (.register input device g) db'
  | added {organizationId actorId email : JsString} {role : GrantableRole} {g : Gen} {user : User}
      {m : Membership} {db' : Db} (hfind : db.findUserByEmail (toLowerCase email) = some user)
      (h : db.upsertMembership user.id organizationId role.val (g.cuid 0) g.now = .ok (m, db')) :
      Writes db (.addMember organizationId actorId email role g) db'
  | invited {organizationId actorId email : JsString} {role : GrantableRole} {g : Gen}
      {invite : Invite} {db' : Db}
      (h : db.upsertInvite
        (OrgsService.newInvite organizationId actorId (toLowerCase email) role g) =
          .ok (invite, db')) :
      Writes db (.addMember organizationId actorId email role g) db'
  | accepted {userId userEmail token : JsString} {g : Gen} {invite : Invite} {m : Membership}
      {db₁ db' : Db} (hfind : db.findInvite (OrgsService.hashToken token) = some invite)
      (hpending : OrgsService.pending g.now invite = true)
      (hemail : toLowerCase invite.email = toLowerCase userEmail)
      (h : db.upsertMembership userId invite.organizationId invite.role (g.cuid 0) g.now =
        .ok (m, db₁))
      (hburn : db₁.burnInvite invite.id g.now = .ok ((), db')) :
      Writes db (.acceptInvite userId userEmail token g) db'
  | roleSet {organizationId actorId targetUserId : JsString} {role : GrantableRole} {g : Gen}
      {m : Membership} (hfind : db.findMembership targetUserId organizationId = some m)
      (hrole : m.role ≠ .OWNER) :
      Writes db (.updateMemberRole organizationId actorId targetUserId role g)
        (db.setRoleById m.id role.val)
  | removed {organizationId actorId targetUserId : JsString} {g : Gen} {m : Membership}
      (hfind : db.findMembership targetUserId organizationId = some m) (hrole : m.role ≠ .OWNER) :
      Writes db (.removeMember organizationId actorId targetUserId g) (db.dropMembership m.id)

variable {env : Env} {w : World}

/-- The database after a call, up to the tables it is not about. -/
def Leaves (env : Env) (w : World) (call : OrgCall) : Prop :=
  ∃ db', call.Writes w.db db' ∧ SameOrgTables db' (call.exec env w).db

theorem leaves_of_same {call : OrgCall} (h : call.exec env w = w) : call.Leaves env w :=
  ⟨w.db, .nothing, by rw [h]; exact ⟨rfl, rfl, rfl, rfl⟩⟩

theorem leaves_of_aftermath {call : OrgCall} {organizationId : JsString} {db' : Db}
    (hwrites : call.Writes w.db db')
    (h : Aftermath organizationId { w with db := db' } (call.exec env w)) : call.Leaves env w :=
  ⟨db', hwrites, h.sameOrgTables⟩

theorem register_leaves (input : RegisterInput) (device : DeviceInfo) (g : Gen) :
    (OrgCall.register input device g).Leaves env w := by
  rcases AuthService.register_cases env input device g w with
    hsame | ⟨db, w', tokens, hu, hw', hres⟩
  · exact leaves_of_same hsame
  · have htokens : SameOrgTables w'.db (exec env (.register input device g) w).db := by
      rw [exec, hres]
      exact ⟨rfl, rfl, rfl, rfl⟩
    rcases hw' with rfl | ⟨name, slug, org, db', hc, hafter⟩
    · exact ⟨db, .registered hu, htokens⟩
    · have hsame := hafter.sameOrgTables
      refine ⟨db', .registeredWith hu hc, ?_, ?_, ?_, ?_⟩
      · exact htokens.users.trans hsame.users
      · exact htokens.organizations.trans hsame.organizations
      · exact htokens.memberships.trans hsame.memberships
      · exact htokens.invites.trans hsame.invites

/-- **What any call writes.** -/
theorem exec_writes (env : Env) (w : World) (call : OrgCall) : call.Leaves env w := by
  cases call with
  | create userId input g =>
      rcases OrgsService.create_cases userId input g w with hsame | ⟨org, db, hc, hafter⟩
      · exact leaves_of_same hsame
      · exact leaves_of_aftermath (.created hc) hafter
  | register input device g => exact register_leaves input device g
  | addMember organizationId actorId email role g =>
      rcases OrgsService.addMember_cases env organizationId actorId email role g w with
        hsame | ⟨user, m, db, hfind, hu, hafter⟩ | ⟨invite, db, -, hi, hafter⟩
      · exact leaves_of_same hsame
      · exact leaves_of_aftermath (.added hfind hu) hafter
      · exact leaves_of_aftermath (.invited hi) hafter
  | acceptInvite userId userEmail token g =>
      rcases OrgsService.acceptInvite_cases userId userEmail token g w with
        hsame | ⟨invite, m, db₁, db, hfind, hpending, hemail, hu, hb, hafter⟩
      · exact leaves_of_same hsame
      · exact leaves_of_aftermath (.accepted hfind hpending hemail hu hb) hafter
  | updateMemberRole organizationId actorId targetUserId role g =>
      rcases OrgsService.updateMemberRole_cases organizationId actorId targetUserId role g w with
        hsame | ⟨m, hfind, hrole, hafter⟩
      · exact leaves_of_same hsame
      · exact leaves_of_aftermath (.roleSet hfind hrole) hafter
  | removeMember organizationId actorId targetUserId g =>
      rcases OrgsService.removeMember_cases organizationId actorId targetUserId g w with
        hsame | ⟨m, hfind, hrole, hafter⟩
      · exact leaves_of_same hsame
      · exact leaves_of_aftermath (.removed hfind hrole) hafter

end OrgCall

/-- One permitted call. -/
def OrgStep (env : Env) (w : World) (call : OrgCall) (w' : World) : Prop :=
  call.Permitted w.db ∧ w' = call.exec env w

/-! ### The invariant, one lemma per write -/

structure Owned (db : Db) : Prop where
  ids : UniqueKey Membership.id db.memberships
  owned : HasOwner db

namespace Owned

variable {db db' : Db}

theorem congr (h : Owned db) (ho : db'.organizations = db.organizations)
    (hm : db'.memberships = db.memberships) : Owned db' := by
  refine ⟨hm ▸ h.ids, ?_⟩
  unfold HasOwner
  rw [ho, hm]
  exact h.owned

/-- A new organization comes with its owner. -/
theorem createOrganization (h : Owned db) {userId name slug : JsString} {g : Gen}
    {org : Organization}
    (hc : db.createOrganization (newOrganization userId name slug g) = .ok (org, db')) :
    Owned db' := by
  obtain ⟨_, rfl, _, hfresh, _⟩ := Db.createOrganization_ok hc
  refine ⟨h.ids.insert hfresh, ?_⟩
  intro o ho
  rcases List.mem_append.1 ho with ho | ho
  · obtain ⟨m, hm, horg, hrole⟩ := h.owned o ho
    exact ⟨m, List.mem_append_left _ hm, horg, hrole⟩
  · rw [List.mem_singleton.1 ho]
    exact ⟨_, List.mem_append_right _ (List.mem_singleton_self _), rfl, rfl⟩

/-- A rewrite of rows that are not an owner's keeps the owners. -/
theorem rewrite (h : Owned db) {p : Membership → Bool} {role : Role}
    (ho : db'.organizations = db.organizations)
    (hm : db'.memberships = updateWhere p (fun m => { m with role := role }) db.memberships)
    (hp : ∀ m ∈ db.memberships, p m = true → m.role ≠ .OWNER) : Owned db' := by
  refine ⟨hm ▸ h.ids.update fun _ _ _ => rfl, ?_⟩
  unfold HasOwner
  rw [ho, hm]
  intro o ho
  obtain ⟨m, hm, horg, hrole⟩ := h.owned o ho
  have hno : p m = false := by
    cases hpm : p m with
    | false => rfl
    | true => exact absurd hrole (hp m hm hpm)
  exact ⟨m, mem_updateWhere_of_not hm hno, horg, hrole⟩

theorem upsertMembership (h : Owned db) {userId organizationId : JsString} {role : Role}
    {id : Cuid} {now : Date} {m : Membership} (hspared : NotOwner userId organizationId db)
    (hu : db.upsertMembership userId organizationId role id now = .ok (m, db')) : Owned db' := by
  rcases Db.upsertMembership_ok hu with rfl | ⟨rfl, hfresh, _, _⟩
  · refine h.rewrite rfl rfl fun m hm hp => ?_
    simp only [Bool.and_eq_true, beq_iff_eq] at hp
    exact hspared m hm hp.1 hp.2
  · refine ⟨h.ids.insert hfresh, ?_⟩
    intro o ho
    obtain ⟨m, hm, horg, hrole⟩ := h.owned o ho
    exact ⟨m, List.mem_append_left _ hm, horg, hrole⟩

/-- The row with the id of a member who is not an owner is that member's. -/
theorem not_owner_of_id (h : Owned db) {m : Membership} (hm : m ∈ db.memberships)
    (hrole : m.role ≠ .OWNER) : ∀ m' ∈ db.memberships, (m'.id == m.id) = true → m'.role ≠ .OWNER := by
  intro m' hm' hid
  rw [h.ids.eq_of_key_eq hm' hm (beq_iff_eq.1 hid)]
  exact hrole

theorem setRoleById (h : Owned db) {m : Membership} (hm : m ∈ db.memberships)
    (hrole : m.role ≠ .OWNER) (role : Role) : Owned (db.setRoleById m.id role) :=
  h.rewrite rfl rfl (h.not_owner_of_id hm hrole)

theorem dropMembership (h : Owned db) {m : Membership} (hm : m ∈ db.memberships)
    (hrole : m.role ≠ .OWNER) : Owned (db.dropMembership m.id) := by
  refine ⟨h.ids.delete _, ?_⟩
  intro o ho
  obtain ⟨m', hm', horg, hrole'⟩ := h.owned o ho
  have hno : (m'.id == m.id) = false := by
    cases hid : m'.id == m.id with
    | false => rfl
    | true => exact absurd hrole' (h.not_owner_of_id hm hrole m' hm' hid)
  exact ⟨m', mem_deleteWhere.2 ⟨hm', hno⟩, horg, hrole'⟩

end Owned

/-! ### Runs -/

/-- A call that spares the owners keeps every organization owned. -/
theorem Owned.exec {env : Env} {w : World} (h : Owned w.db) (call : OrgCall)
    (hspared : call.Spares w.db) : Owned (call.exec env w).db := by
  obtain ⟨db', hwrites, hsame⟩ := call.exec_writes env w
  suffices hdb : Owned db' from hdb.congr hsame.organizations hsame.memberships
  cases hwrites with
  | nothing => exact h
  | created hc => exact h.createOrganization hc
  | registered hu =>
      obtain ⟨_, rfl, _⟩ := Db.createUser_ok hu
      exact h.congr rfl rfl
  | registeredWith hu hc =>
      refine Owned.createOrganization ?_ hc
      obtain ⟨_, rfl, _⟩ := Db.createUser_ok hu
      exact h.congr rfl rfl
  | added hfind hu => exact h.upsertMembership (hspared _ hfind) hu
  | invited hi => rcases Db.upsertInvite_ok hi with rfl | rfl <;> exact h.congr rfl rfl
  | accepted hfind hpending hemail hu hb =>
      obtain ⟨invites, rfl⟩ := Db.burnInvite_ok hb
      exact (h.upsertMembership (hspared _ hfind hpending hemail) hu).congr rfl rfl
  | roleSet hfind hrole => exact h.setRoleById (Db.findMembership_some hfind).1 hrole _
  | removed hfind hrole => exact h.dropMembership (Db.findMembership_some hfind).1 hrole

/-- **Every organization keeps an owner as long as the owners are spared.**  In every run of the
six operations from an empty installation in which no upsert hits an owner's row. -/
theorem owned_of_spared {env : Env} {calls : List OrgCall} {w : World}
    (hrun : Run (Guarded (OrgStep env) fun w call => call.Spares w.db) World.empty calls w) :
    HasOwner w.db := by
  have hinv : Owned w.db := by
    have h₀ : Owned World.empty.db := ⟨List.nodup_nil, fun o ho => by cases ho⟩
    refine hrun.invariant (P := fun w => Owned w.db) ?_ h₀
    intro w call w' h hstep
    rw [hstep.1.2]
    exact h.exec call hstep.2
  exact hinv.owned

/-! ### Ann signs up with an organization, and invites herself or somebody else -/

namespace OrgCall.Samples

open TokenService.Samples

def signUp : OrgCall :=
  .register ⟨js "ann@demo.test", js "correct horse", js "Ann", some (js "Demo")⟩ device
    ⟨0, fun k => if k = 0 then Demo.userId else Demo.orgId, fun _ => js "t0"⟩

/-- `POST /orgs/demo/members` by Ann. -/
def invite (email : JsString) : OrgCall :=
  .addMember Demo.orgId.val Demo.userId.val email ⟨.MEMBER, by decide⟩
    ⟨0, fun _ => Demo.projectId, fun _ => js "i0"⟩

def signedUp : World := signUp.exec env World.empty

theorem signUp_step : OrgStep env World.empty signUp signedUp := ⟨trivial, rfl⟩

theorem invite_step (email : JsString) :
    OrgStep env signedUp (invite email) ((invite email).exec env signedUp) := by
  have hholds : Holds Demo.userId.val Demo.orgId.val .memberInvite signedUp.db := by decide
  exact ⟨hholds, rfl⟩

end OrgCall.Samples

open OrgCall.Samples TokenService.Samples in
theorem owned_of_spared_invite : HasOwner ((invite (js "bob@demo.test")).exec env signedUp).db := by
  have hspared : (invite (js "bob@demo.test")).Spares signedUp.db := by
    have hnone : signedUp.db.findUserByEmail (toLowerCase (js "bob@demo.test")) = none := by decide
    intro user huser
    rw [hnone] at huser
    cases huser
  exact owned_of_spared ((Run.nil.snoc (a := signUp) ⟨signUp_step, trivial⟩).snoc
    ⟨invite_step (js "bob@demo.test"), hspared⟩)

open OrgCall.Samples TokenService.Samples in
/-- The owner adds her own address as a `MEMBER`: the organization has no owner left. -/
theorem owner_demoted_by_addMember :
    Run (OrgStep env) World.empty [signUp, invite (js "ann@demo.test")]
        ((invite (js "ann@demo.test")).exec env signedUp) ∧
      ¬HasOwner ((invite (js "ann@demo.test")).exec env signedUp).db := by
  refine ⟨(Run.nil.snoc signUp_step).snoc (invite_step _), ?_⟩
  decide

end PmSaas
