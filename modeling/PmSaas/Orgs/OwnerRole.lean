import PmSaas.Orgs.Ownership

/-!
# Who is an owner

No request can name the role `OWNER`: `create` and `register` give it to the user who creates the
organization, and the other operations write roles of type `GrantableRole` or the role of an invite,
which is one.

* `Founding` runs the six operations and records who created which organization;
* `owner_is_founder`: only the creator of an organization is ever its `OWNER`, no invite carries the
  role, and nobody else has a permission that only an owner has.
-/

namespace PmSaas

open Table JsString TransitionSystem

/-- The world, and who created which organization, in the order of creation. -/
structure Founding where
  world : World
  /-- The ids of an organization and of the user who created it. -/
  founded : List (JsString × JsString)

/-- The user on whose behalf a call creates organizations. -/
def OrgCall.founder : OrgCall → Option JsString
  | .create userId _ _ => some userId
  | .register _ _ g => some (g.cuid 0).val
  | _ => none

namespace Founding

def next (env : Env) (s : Founding) (call : OrgCall) : Founding where
  world := call.exec env s.world
  founded := s.founded ++
    ((call.exec env s.world).db.organizations.drop s.world.db.organizations.length).flatMap
      fun o => call.founder.toList.map fun userId => (o.id, userId)

/-- A fresh installation. -/
def start : Founding := ⟨.empty, []⟩

end Founding

/-- Any of the six operations, by anybody. -/
abbrev FoundingStep (env : Env) : Founding → OrgCall → Founding → Prop :=
  Steps (fun _ _ => True) (Founding.next env)

/-! ### The invariant, one lemma per write -/

/-- Each organization has one founder, who alone can be its owner; no invite makes an owner. -/
structure Founded (founded : List (JsString × JsString)) (db : Db) : Prop where
  ids : UniqueKey Organization.id db.organizations
  organizations : founded.map Prod.fst = db.organizations.map Organization.id
  owners : ∀ m ∈ db.memberships, m.role = .OWNER → (m.organizationId, m.userId) ∈ founded
  invites : ∀ i ∈ db.invites, i.role ≠ .OWNER

namespace Founded

variable {founded : List (JsString × JsString)} {db db' : Db}

theorem congr (h : Founded founded db) (ho : db'.organizations = db.organizations)
    (hm : db'.memberships = db.memberships) (hi : db'.invites = db.invites) :
    Founded founded db' := by
  constructor <;> simp only [ho, hm, hi]
  · exact h.ids
  · exact h.organizations
  · exact h.owners
  · exact h.invites

/-- A new organization has its creator as owner. -/
theorem createOrganization (h : Founded founded db) {userId name slug : JsString} {g : Gen}
    {org : Organization}
    (hc : db.createOrganization (newOrganization userId name slug g) = .ok (org, db')) :
    Founded (founded ++ [(org.id, userId)]) db' := by
  obtain ⟨rfl, rfl, hfresh, _⟩ := Db.createOrganization_ok hc
  refine ⟨h.ids.insert fun o ho => (hfresh o ho).1, ?_, fun m hm hrole => ?_, h.invites⟩
  · rw [List.map_append, h.organizations, Db.insertOrganization, List.map_append]
    rfl
  · rcases List.mem_append.1 hm with hm | hm
    · exact List.mem_append_left _ (h.owners m hm hrole)
    · rw [List.mem_singleton.1 hm]
      exact List.mem_append_right _ (List.mem_singleton_self _)

/-- Roles other than `OWNER` are written into some rows. -/
theorem rewrite (h : Founded founded db) {p : Membership → Bool} {role : Role}
    (hrole : role ≠ .OWNER) :
    Founded founded
      { db with memberships := updateWhere p (fun m => { m with role := role }) db.memberships } := by
  refine ⟨h.ids, h.organizations, fun m hm howner => ?_, h.invites⟩
  obtain ⟨old, hold, rfl⟩ := mem_updateWhere.1 hm
  by_cases hp : p old = true
  · rw [if_pos hp] at howner
    exact absurd howner hrole
  · rw [if_neg hp] at howner ⊢
    exact h.owners old hold howner

theorem upsertMembership (h : Founded founded db) {userId organizationId : JsString} {role : Role}
    {id : Cuid} {now : Date} {m : Membership} (hrole : role ≠ .OWNER)
    (hu : db.upsertMembership userId organizationId role id now = .ok (m, db')) :
    Founded founded db' := by
  rcases Db.upsertMembership_ok hu with rfl | ⟨rfl, _, _, _⟩
  · exact h.rewrite hrole
  · refine ⟨h.ids, h.organizations, fun m hm howner => ?_, h.invites⟩
    rcases List.mem_append.1 hm with hm | hm
    · exact h.owners m hm howner
    · rw [List.mem_singleton.1 hm] at howner
      exact absurd howner hrole

theorem upsertInvite (h : Founded founded db) {row invite : Invite} (hrole : row.role ≠ .OWNER)
    (hu : db.upsertInvite row = .ok (invite, db')) : Founded founded db' := by
  have hinvites : ∀ i ∈ db'.invites, i.role ≠ .OWNER := by
    intro i hi
    rcases Db.mem_upsertInvite hu hi with hold | ⟨id, createdAt, rfl⟩
    · exact h.invites i hold
    · exact hrole
  rcases Db.upsertInvite_ok hu with rfl | rfl
  · exact ⟨h.ids, h.organizations, h.owners, hinvites⟩
  · exact ⟨h.ids, h.organizations, h.owners, hinvites⟩

theorem burnInvite (h : Founded founded db) {id : JsString} {now : Date}
    (hb : db.burnInvite id now = .ok ((), db')) : Founded founded db' := by
  have hinvites : ∀ i ∈ db'.invites, i.role ≠ .OWNER := by
    intro i hi
    obtain ⟨old, hold, ⟨_, rfl⟩ | ⟨_, rfl⟩⟩ := Db.mem_burnInvite hb hi
    · exact h.invites _ hold
    · exact h.invites old hold
  obtain ⟨invites, rfl⟩ := Db.burnInvite_ok hb
  exact ⟨h.ids, h.organizations, h.owners, hinvites⟩

theorem dropMembership (h : Founded founded db) (id : JsString) :
    Founded founded (db.dropMembership id) :=
  ⟨h.ids, h.organizations, fun m hm => h.owners m (mem_deleteWhere.1 hm).1, h.invites⟩

/-- Every organization has exactly one founder. -/
theorem existsUnique (h : Founded founded db) {o : Organization} (ho : o ∈ db.organizations) :
    ∃! userId, (o.id, userId) ∈ founded := by
  have hids : UniqueKey Prod.fst founded := by
    rw [UniqueKey, h.organizations]
    exact h.ids
  have hmem : o.id ∈ founded.map Prod.fst := by
    rw [h.organizations]
    exact List.mem_map_of_mem ho
  obtain ⟨⟨orgId, userId⟩, hfounded, hid⟩ := List.mem_map.1 hmem
  obtain rfl : orgId = o.id := hid
  refine ⟨userId, hfounded, fun other hother => ?_⟩
  have heq := hids.eq_of_key_eq hother hfounded rfl
  exact congrArg Prod.snd heq

end Founded

/-! ### Runs -/

/-- What the organizations of `rows` add to the record, if the call creates them. -/
def OrgCall.records (call : OrgCall) (rows : List Organization) : List (JsString × JsString) :=
  rows.flatMap fun o => call.founder.toList.map fun userId => (o.id, userId)

/-- The call adds organizations to the table, and their founder to the record. -/
def OrgCall.Founds (founded : List (JsString × JsString)) (db : Db) (call : OrgCall) (db' : Db) :
    Prop :=
  ∃ rows, db'.organizations = db.organizations ++ rows ∧
    Founded (founded ++ call.records rows) db'

namespace Founded

variable {env : Env} {founded : List (JsString × JsString)} {db db' : Db}

/-- A call that creates no organization. -/
theorem founds_none {call : OrgCall} (h : Founded founded db')
    (hsame : db'.organizations = db.organizations) : call.Founds founded db db' := by
  refine ⟨[], by rw [hsame, List.append_nil], ?_⟩
  rw [OrgCall.records, List.flatMap_nil, List.append_nil]
  exact h

/-- A call that creates one organization. -/
theorem founds_one {call : OrgCall} {userId name slug : JsString} {g : Gen} {org : Organization}
    (h : Founded founded db) (hfounder : call.founder = some userId)
    (hc : db.createOrganization (newOrganization userId name slug g) = .ok (org, db')) :
    call.Founds founded db db' := by
  have hnew := h.createOrganization hc
  have hrecords : call.records [org] = [(org.id, userId)] := by
    rw [OrgCall.records, hfounder]
    rfl
  obtain ⟨rfl, rfl, _⟩ := Db.createOrganization_ok hc
  refine ⟨[_], rfl, ?_⟩
  rw [hrecords]
  exact hnew

theorem ne_owner (role : GrantableRole) : role.val ≠ .OWNER := role.property

/-- **Every operation keeps the owners founders.** -/
theorem writes (h : Founded founded db) {call : OrgCall} (hwrites : call.Writes db db') :
    call.Founds founded db db' := by
  cases hwrites with
  | nothing => exact founds_none h rfl
  | created hc => exact h.founds_one rfl hc
  | registered hu =>
      obtain ⟨_, rfl, _⟩ := Db.createUser_ok hu
      exact founds_none (h.congr rfl rfl rfl) rfl
  | @registeredWith input _ g _ _ _ _ _ hu hc =>
      obtain ⟨_, rfl, _⟩ := Db.createUser_ok hu
      have hdb : Founded founded
          { db with users := db.users ++ [AuthService.newUser input g] } := h.congr rfl rfl rfl
      exact hdb.founds_one rfl hc
  | added _ hu =>
      refine founds_none (h.upsertMembership (ne_owner _) hu) ?_
      rcases Db.upsertMembership_ok hu with rfl | ⟨rfl, _, _, _⟩ <;> rfl
  | invited hi =>
      refine founds_none (h.upsertInvite (ne_owner _) hi) ?_
      rcases Db.upsertInvite_ok hi with rfl | rfl <;> rfl
  | accepted hfind _ _ hu hb =>
      have hrole := h.invites _ (List.mem_of_find?_eq_some hfind)
      refine founds_none ((h.upsertMembership hrole hu).burnInvite hb) ?_
      obtain ⟨invites, rfl⟩ := Db.burnInvite_ok hb
      rcases Db.upsertMembership_ok hu with rfl | ⟨rfl, _, _, _⟩ <;> rfl
  | roleSet => exact founds_none (h.rewrite (ne_owner _)) rfl
  | removed => exact founds_none (h.dropMembership _) rfl

theorem next {s : Founding} (h : Founded s.founded s.world.db) (call : OrgCall) :
    Founded (s.next env call).founded (s.next env call).world.db := by
  obtain ⟨db', hwrites, hsame⟩ := call.exec_writes env s.world
  obtain ⟨rows, hrows, hfounded⟩ := h.writes hwrites
  have hrecord : (s.next env call).founded = s.founded ++ call.records rows := by
    rw [Founding.next, hsame.organizations, hrows, List.drop_left, OrgCall.records]
  rw [hrecord]
  exact hfounded.congr hsame.organizations hsame.memberships hsame.invites

end Founded

/-- Only an owner may delete the organization or manage its billing. -/
theorem owner_of_can {role : Role}
    (h : can role .orgDelete = true ∨ can role .orgManageBilling = true) : role = .OWNER := by
  revert h
  cases role <;> decide

/-- **Only the creator is an owner.**  In every run of the six operations, by anybody and in any
order, each organization has exactly one recorded founder; every `OWNER` membership is the
founder's, no invite carries the role, and a member who may delete the organization or manage its
billing is the founder. -/
theorem owner_is_founder {env : Env} {calls : List OrgCall} {s : Founding}
    (hrun : Run (FoundingStep env) Founding.start calls s) :
    (∀ o ∈ s.world.db.organizations, ∃! userId, (o.id, userId) ∈ s.founded) ∧
    (∀ m ∈ s.world.db.memberships, m.role = .OWNER → (m.organizationId, m.userId) ∈ s.founded) ∧
    (∀ i ∈ s.world.db.invites, i.role ≠ .OWNER) ∧
    ∀ m ∈ s.world.db.memberships,
      can m.role .orgDelete = true ∨ can m.role .orgManageBilling = true →
        (m.organizationId, m.userId) ∈ s.founded := by
  have h : Founded s.founded s.world.db := by
    have h₀ : Founded Founding.start.founded Founding.start.world.db :=
      ⟨List.nodup_nil, rfl, fun m hm => (by cases hm), fun i hi => (by cases hi)⟩
    refine hrun.invariant (P := fun s => Founded s.founded s.world.db) ?_ h₀
    intro s call s' hs hstep
    obtain ⟨_, rfl⟩ := hstep
    exact hs.next call
  exact ⟨fun o ho => h.existsUnique ho, h.owners, h.invites,
    fun m hm hcan => h.owners m hm (owner_of_can hcan)⟩

/-! ### Ann signs up and invites Bob -/

namespace Founding.Samples

open OrgCall.Samples TokenService.Samples

def calls : List OrgCall := [signUp, invite (js "bob@demo.test")]

def invited : Founding := calls.foldl (Founding.next env) Founding.start

end Founding.Samples

open Founding.Samples TokenService.Samples in
theorem owner_is_founder_invited :
    (∀ o ∈ invited.world.db.organizations, ∃! userId, (o.id, userId) ∈ invited.founded) ∧
    (∀ m ∈ invited.world.db.memberships, m.role = .OWNER →
      (m.organizationId, m.userId) ∈ invited.founded) ∧
    (∀ i ∈ invited.world.db.invites, i.role ≠ .OWNER) ∧
    ∀ m ∈ invited.world.db.memberships,
      can m.role .orgDelete = true ∨ can m.role .orgManageBilling = true →
        (m.organizationId, m.userId) ∈ invited.founded :=
  owner_is_founder (Along.run (show Along _ (Founding.next env) Founding.start calls by decide))

open Founding.Samples in
example : invited.founded = [(Demo.orgId.val, Demo.userId.val)] ∧
    invited.world.db.invites.map Invite.role = [.MEMBER] := by decide

end PmSaas
