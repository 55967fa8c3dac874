import PmSaas.Issues.IssueTasks
import PmSaas.Orgs.OrgTasks
import PmSaas.Realtime.RoomAccess

/-!
# Whom an issue event reaches

`onJoin` looks the membership up once; nothing takes a socket out of a room when `removeMember`
deletes the membership, so the removed member goes on receiving the project's events
(`removed_still_receives`).

* `Hub` is the database, the sockets and a journal of the lookups that let a socket in and of the
  memberships that were deleted;
* `delivered_to_admitted` — whoever an issue event is delivered to had a membership at the lookup
  of a join of the project, and has it still unless `removeMember` has deleted it since.
-/

namespace PmSaas

open Table TransitionSystem

/-- The ids of the projects, each with its organization's. -/
def Db.homes (db : Db) : List (JsString × JsString) :=
  db.projects.map fun p => (p.id, p.organizationId)

/-- The organization a project belongs to. -/
def Db.owner (projectId : JsString) (db : Db) : Option JsString :=
  (db.projects.find? (·.id == projectId)).map Project.organizationId

/-- The user has a membership in the organization. -/
def Db.Member (organizationId userId : JsString) (db : Db) : Prop :=
  ∃ m ∈ db.memberships, m.userId = userId ∧ m.organizationId = organizationId

instance (organizationId userId : JsString) (db : Db) :
    Decidable (db.Member organizationId userId) :=
  inferInstanceAs (Decidable (∃ _ ∈ _, _))

theorem Db.owner_eq (projectId : JsString) (db : Db) :
    db.owner projectId = (db.homes.find? fun h => h.1 == projectId).map Prod.snd := by
  rw [owner, homes, List.find?_map, Option.map_map]
  rfl

theorem Db.owner_congr {db db' : Db} (h : db'.homes = db.homes) (projectId : JsString) :
    db'.owner projectId = db.owner projectId := by
  rw [owner_eq, h, owner_eq]

/-- The organization a project belongs to has a generated id. -/
def Db.OwnerIds (db : Db) : Prop := ∀ h ∈ db.homes, cuidFormat h.2 = true

instance (db : Db) : Decidable db.OwnerIds := List.decidableBAll ..

theorem Db.OwnerIds.owner {db : Db} (h : db.OwnerIds) {projectId organizationId : JsString}
    (howner : db.owner projectId = some organizationId) : cuidFormat organizationId = true := by
  obtain ⟨p, hp, rfl⟩ := Option.map_eq_some_iff.1 howner
  exact h _ (List.mem_map_of_mem (List.mem_of_find?_eq_some hp))

theorem Db.owner_of_joinLookup {db : Db} {projectId organizationId : JsString}
    {userId : Option JsString} (h : db.joinLookup projectId userId = some organizationId) :
    db.owner projectId = some organizationId := by
  obtain ⟨p, hp, hsome⟩ := Option.bind_eq_some_iff.1 h
  rw [owner, hp]
  split at hsome
  · exact hsome
  · cases hsome

/-! ### What the requests leave of projects and memberships -/

/-- Issue requests change no project's organization and no membership. -/
theorem IssueTask.Step.tenancy {organizationId : JsString} {g : Gen} {w w' : World}
    {task task' : IssueTask} (h : IssueTask.Step organizationId g w task task' w') :
    w'.db.homes = w.db.homes ∧ w'.db.memberships = w.db.memberships := by
  cases h with
  | quiet | emit => exact ⟨rfl, rfl⟩
  | notify job =>
      rw [World.enqueued_db]
      exact ⟨rfl, rfl⟩
  | create hc =>
      obtain ⟨project, rank, _, _, hcreated⟩ := Db.createIssueTx_ok hc
      obtain ⟨_, rfl, _⟩ := Db.createIssue_ok hcreated
      refine ⟨?_, rfl⟩
      exact map_updateWhere fun _ _ _ => rfl
  | update hu =>
      obtain ⟨_, _, _, rfl⟩ := Db.updateIssue_ok hu
      exact ⟨rfl, rfl⟩
  | move hu =>
      obtain ⟨_, _, _, rfl⟩ := Db.updateIssue_ok hu
      exact ⟨rfl, rfl⟩
  | remove hd =>
      rw [Db.deleteIssue_ok hd]
      exact ⟨rfl, rfl⟩
  | audit a =>
      have hlater : Aftermath a.entry.organizationId w (w.recorded a.entry (g.cuid 0) g.now) :=
        .recorded (g.cuid 0) g.now w
      obtain ⟨logs, _, hdb⟩ := hlater.db
      rw [hdb]
      exact ⟨rfl, rfl⟩

/-- The memberships a step of a request deletes. -/
def OrgTask.deleted (db : Db) : OrgTask → List Membership
  | .deleting m _ _ _ => db.memberships.filter (·.id == m.id)
  | _ => []

/-- `db'` has the projects of `db`, and the members but for those of `gone`. -/
structure Retains (gone : List Membership) (db db' : Db) : Prop where
  homes : db'.homes = db.homes
  members : ∀ m ∈ db.memberships, db'.Member m.organizationId m.userId ∨ m ∈ gone

namespace Retains

variable {gone : List Membership} {db db' : Db}

theorem same (hp : db'.projects = db.projects) (hm : db'.memberships = db.memberships) :
    Retains gone db db' := by
  refine ⟨by rw [Db.homes, hp, Db.homes], fun m hmem => .inl ⟨m, ?_, rfl, rfl⟩⟩
  rw [hm]
  exact hmem

theorem rewrite (hp : db'.projects = db.projects) {q : Membership → Bool} {role : Role}
    (hm : db'.memberships = updateWhere q (fun m => { m with role := role }) db.memberships) :
    Retains gone db db' := by
  refine ⟨by rw [Db.homes, hp, Db.homes], fun m hmem => .inl ?_⟩
  refine ⟨_, hm ▸ mem_updateWhere.2 ⟨m, hmem, rfl⟩, ?_⟩
  split <;> exact ⟨rfl, rfl⟩

theorem upsert {userId organizationId : JsString} {role : Role} {id : Cuid} {now : Date}
    {m : Membership} (h : db.upsertMembership userId organizationId role id now = .ok (m, db')) :
    Retains gone db db' := by
  rcases Db.upsertMembership_ok h with rfl | ⟨rfl, _, _, _⟩
  · exact .rewrite rfl rfl
  · exact ⟨rfl, fun m hmem => .inl ⟨m, List.mem_append_left _ hmem, rfl, rfl⟩⟩

/-- **A membership request deletes no membership but the one it was sent to delete.** -/
theorem step {env : Env} {g : Gen} {w w' : World} {task task' : OrgTask}
    (h : OrgTask.Step env g w task task' w') : Retains (task.deleted w.db) w.db w'.db := by
  cases h with
  | quiet | findUser | findNobody | findInvite | findMember | mail => exact .same rfl rfl
  | createUser hc =>
      obtain ⟨_, rfl, _⟩ := Db.createUser_ok hc
      exact .same rfl rfl
  | createOrg hc =>
      obtain ⟨_, rfl, _⟩ := Db.createOrganization_ok hc
      exact ⟨rfl, fun m hmem => .inl ⟨m, List.mem_append_left _ hmem, rfl, rfl⟩⟩
  | issue user device answer =>
      obtain ⟨tokens, hw⟩ := TokenService.issueForUser_frame env ⟨user.id, user.email⟩ device g w
      rw [hw]
      exact .same rfl rfl
  | upsert hu => exact .upsert hu
  | invite hi =>
      rcases Db.upsertInvite_ok hi with rfl | rfl
      · exact .same rfl rfl
      · exact .same rfl rfl
  | @accept _ _ _ db₁ _ hm hb =>
      obtain ⟨invites, rfl⟩ := Db.burnInvite_ok hb
      have hupsert : Retains [] w.db db₁ := .upsert hm
      exact ⟨hupsert.homes, fun m hmem => .inl ((hupsert.members m hmem).resolve_right nofun)⟩
  | update => exact .rewrite rfl rfl
  | @delete row organizationId actorId targetUserId entry known =>
      refine ⟨rfl, fun m hmem => ?_⟩
      cases hid : m.id == row.id with
      | false => exact .inl ⟨m, mem_deleteWhere.2 ⟨hmem, hid⟩, rfl, rfl⟩
      | true => exact .inr (List.mem_filter.2 ⟨hmem, hid⟩)
  | audit entry next =>
      have hlater : Aftermath entry.organizationId w (w.recorded entry (g.cuid 0) g.now) :=
        .recorded (g.cuid 0) g.now w
      obtain ⟨logs, _, hdb⟩ := hlater.db
      rw [hdb]
      exact .same rfl rfl

end Retains

/-! ### The system -/

inductive JournalEntry (ι : Type*) where
  /-- The lookup of a `project:join` found the project and a membership. -/
  | admitted (client : ι) (projectId organizationId : JsString) (seen : Db)
  /-- `removeMember` deleted a membership. -/
  | removed (organizationId userId : JsString)

/-- A request or a message in the making.  The organization of an issue request is the one that
`TenantGuard` has resolved. -/
inductive HubTask (ι : Type*) where
  | socket (task : Task ι)
  | issue (organizationId : Cuid) (task : IssueTask)
  | org (task : OrgTask)

structure Hub (ι : Type*) where
  world : World
  gateway : Gateway ι
  journal : List (JournalEntry ι)

/-- What the lookup of a join is about to find. -/
def Task.admissions {ι : Type*} (db : Db) : Task ι → List (JournalEntry ι)
  | .lookup client projectId userId =>
      match db.joinLookup projectId userId with
      | some organizationId => [.admitted client projectId organizationId db]
      | none => []
  | _ => []

section Model

variable {τ ι : Type*} [DecidableEq τ] [DecidableEq ι] {env : Env}
  {verify : JsString → Option JsString}

namespace Hub

/-- The sockets' handlers ask the database of the services. -/
def sockets (s : Hub ι) : Gateway ι := { s.gateway with db := s.world.db }

/-- The next database call of a request or of a handler. -/
def step (env : Env) (verify : JsString → Option JsString) (belowFirst : Bool) (g : Gen) :
    HubTask ι → Hub ι → HubTask ι × Hub ι
  | .socket task, s =>
      (.socket (Gateway.step verify task s.sockets).1,
        { s with
          gateway := (Gateway.step verify task s.sockets).2
          journal := s.journal ++ task.admissions s.world.db })
  | .issue organizationId task, s =>
      (.issue organizationId (IssueTask.step organizationId.val belowFirst g task s.world).1,
        { s with world := (IssueTask.step organizationId.val belowFirst g task s.world).2 })
  | .org task, s =>
      (.org (OrgTask.step env g task s.world).1,
        { s with
          world := (OrgTask.step env g task s.world).2
          journal := s.journal ++
            (task.deleted s.world.db).map fun m => .removed m.organizationId m.userId })

end Hub

abbrev HubPool (τ ι : Type*) := Pool τ (HubTask ι) (Hub ι)

inductive HubAction (τ ι : Type*) where
  | run (t : τ) (g : Gen) (belowFirst : Bool)
  | leave (client : ι) (projectId : JsString)
  | disconnect (client : ι)

namespace HubPool

def next (env : Env) (verify : JsString → Option JsString) (s : HubPool τ ι) :
    HubAction τ ι → HubPool τ ι
  | .run t g belowFirst => s.advance (Hub.step env verify belowFirst g) t
  | .leave client projectId =>
      { s with store := { s.store with gateway := s.store.gateway.onLeave client projectId } }
  | .disconnect client =>
      { s with store := { s.store with gateway := s.store.gateway.disconnect client } }

/-- Messages come from connected sockets. -/
def Enabled (s : HubPool τ ι) : HubAction τ ι → Prop
  | .leave client _ => (s.store.gateway.socket client).connected = true
  | _ => True

instance (s : HubPool τ ι) : ∀ a, Decidable (s.Enabled a)
  | .leave _ _ => inferInstanceAs (Decidable (_ = true))
  | .run _ _ _ | .disconnect _ => isTrue trivial

/-- The next step of the request is `emitToProject`, and the socket is in the room. -/
def Delivers (s : HubPool τ ι) (t : τ) (client : ι) (organizationId projectId : JsString) : Prop :=
  ∃ org a, s.thread t = .issue org (.emitting a) ∧ org.val = organizationId ∧
    a.projectId = projectId ∧
    projectRoom organizationId projectId ∈ (s.store.gateway.socket client).joined

end HubPool

/-- One database call of a request, or a message that is handled at once. -/
abbrev HubStep (env : Env) (verify : JsString → Option JsString) :
    HubPool τ ι → HubAction τ ι → HubPool τ ι → Prop :=
  Steps HubPool.Enabled (HubPool.next env verify)

/-- Every `handleConnection` is through, nobody is in a room, and nothing is dispatched yet. -/
structure HubStart (s : HubPool τ ι) : Prop where
  sockets : ∀ i, ∃ data : SocketData, s.store.gateway.socket i = ⟨true, some data, []⟩
  tasks : ∀ t, (∃ client projectId, s.thread t = .socket (.join client projectId)) ∨
    (∃ org request, s.thread t = .issue org (.start request)) ∨
      ∃ request, s.thread t = .org (.start request)
  ids : s.store.world.db.OwnerIds
  journal : s.store.journal = []

namespace Hub

/-- A lookup of a join of the project found a membership of the socket's user in the project's
organization, which is there still or was deleted by `removeMember` since. -/
def Granted (s : Hub ι) (client : ι) (projectId organizationId : JsString) : Prop :=
  s.world.db.owner projectId = some organizationId ∧
  ∃ userId, s.gateway.userOf client = some userId ∧ ∃ before seen after,
    s.journal = before ++ .admitted client projectId organizationId seen :: after ∧
    seen.Member organizationId userId ∧
    (s.world.db.Member organizationId userId ∨ .removed organizationId userId ∈ after)

/-- What a handler of a socket has found so far is so. -/
def Sane (s : Hub ι) : Task ι → Prop
  | .join _ _ | .done => True
  | .lookup client _ userId => userId = s.gateway.userOf client
  | .enterRoom client projectId _ organizationId _ => s.Granted client projectId organizationId
  | _ => False

/-- Projects and users stay, and who is no longer a member is in the journal. -/
structure Onward (s s' : Hub ι) : Prop where
  homes : s'.world.db.homes = s.world.db.homes
  users : ∀ i, s'.gateway.userOf i = s.gateway.userOf i
  journal : ∃ more, s'.journal = s.journal ++ more ∧ ∀ m ∈ s.world.db.memberships,
    s'.world.db.Member m.organizationId m.userId ∨ .removed m.organizationId m.userId ∈ more

section Onward

variable {s s' : Hub ι} {client : ι} {projectId organizationId : JsString}

omit [DecidableEq ι] in
theorem Granted.onward (h : s.Granted client projectId organizationId) (ho : Onward s s') :
    s'.Granted client projectId organizationId := by
  obtain ⟨howner, u, hu, before, seen, after, hjournal, hseen, hmember⟩ := h
  obtain ⟨more, hmore, hkept⟩ := ho.journal
  refine ⟨(Db.owner_congr ho.homes projectId).trans howner, u, (ho.users client).trans hu,
    before, seen, after ++ more, ?_, hseen, ?_⟩
  · rw [hmore, hjournal, List.append_assoc, List.cons_append]
  · rcases hmember with ⟨m, hm, rfl, rfl⟩ | hremoved
    · exact (hkept m hm).imp_right (List.mem_append_right after)
    · exact .inr (List.mem_append_left more hremoved)

omit [DecidableEq ι] in
theorem Sane.onward {task : Task ι} (h : s.Sane task) (ho : Onward s s') : s'.Sane task := by
  cases task with
  | lookup client projectId userId => exact h.trans (ho.users client).symm
  | enterRoom client projectId userId organizationId seen => exact Granted.onward h ho
  | _ => exact h

omit [DecidableEq ι] in
theorem Onward.of_keeps {gateway : Gateway ι} (h : Keeps s.gateway gateway) :
    Onward s { s with gateway := gateway } :=
  ⟨rfl, h.users, [], by simp, fun m hm => .inl ⟨m, hm, rfl, rfl⟩⟩

omit [DecidableEq ι] in
theorem keeps_sockets (s : Hub ι) : Keeps s.gateway s.sockets := .of_eq rfl rfl

end Onward

end Hub

/-! ### The entry into a room -/

theorem joinRoom_userOf (s : Gateway ι) (client : ι) (projectId organizationId : JsString)
    (seen : Db) (i : ι) :
    (s.joinRoom client projectId organizationId seen).userOf i = s.userOf i := by
  unfold Gateway.joinRoom
  split
  · by_cases hi : i = client
    · subst hi
      simp [Gateway.userOf, Gateway.setSocket]
    · simp [Gateway.userOf, Gateway.setSocket, hi]
  · rfl

theorem mem_joined_of_joinRoom {s : Gateway ι} {client : ι} {projectId organizationId : JsString}
    {seen : Db} {i : ι} {room : JsString}
    (h : room ∈ ((s.joinRoom client projectId organizationId seen).socket i).joined) :
    room ∈ (s.socket i).joined ∨ i = client ∧ room = projectRoom organizationId projectId := by
  unfold Gateway.joinRoom at h
  split at h
  · by_cases hi : i = client
    · subst hi
      simp only [Gateway.setSocket, Function.update_self, List.mem_append,
        List.mem_singleton] at h
      exact h.imp_right fun hroom => ⟨rfl, hroom⟩
    · simp only [Gateway.setSocket, Function.update_of_ne hi] at h
      exact .inl h
  · exact .inl h

/-! ### Who is in a room was let in -/

/-- Every socket has its user, the joins under way go by what they have found, and every socket in
a room was let into it. -/
structure Admitted (s : HubPool τ ι) : Prop where
  ids : s.store.world.db.OwnerIds
  users : ∀ i, ∃ userId, s.store.gateway.userOf i = some userId
  tasks : ∀ t task, s.thread t = .socket task → s.store.Sane task
  rooms : ∀ i, ∀ room ∈ (s.store.gateway.socket i).joined, ∃ projectId organizationId,
    projectRoom organizationId projectId = room ∧ s.store.Granted i projectId organizationId

namespace Admitted

variable {s s' : HubPool τ ι} {t : τ} {g : Gen} {belowFirst : Bool}

omit [DecidableEq τ] [DecidableEq ι] in
theorem start (h : HubStart s) : Admitted s := by
  refine ⟨h.ids, fun i => ?_, fun t task ht => ?_, fun i room hroom => ?_⟩
  · obtain ⟨data, hdata⟩ := h.sockets i
    exact ⟨data.userId, by rw [Gateway.userOf, hdata]; rfl⟩
  · rcases h.tasks t with ⟨client, projectId, hjoin⟩ | ⟨_, _, hissue⟩ | ⟨_, horg⟩
    · rw [hjoin] at ht
      cases ht
      trivial
    · rw [hissue] at ht
      cases ht
    · rw [horg] at ht
      cases ht
  · obtain ⟨data, hdata⟩ := h.sockets i
    rw [hdata] at hroom
    cases hroom

omit [DecidableEq τ] [DecidableEq ι] in
theorem onward (h : Admitted s) (ho : Hub.Onward s.store s'.store)
    (htasks : ∀ t task, s'.thread t = .socket task →
      s.thread t = .socket task ∨ s'.store.Sane task)
    (hrooms : ∀ i, ∀ room ∈ (s'.store.gateway.socket i).joined,
      room ∈ (s.store.gateway.socket i).joined ∨ ∃ projectId organizationId,
        projectRoom organizationId projectId = room ∧
          s.store.Granted i projectId organizationId) : Admitted s' := by
  refine ⟨?_, fun i => ?_, fun t task ht => ?_, fun i room hroom => ?_⟩
  · intro home hmem
    rw [ho.homes] at hmem
    exact h.ids home hmem
  · obtain ⟨userId, hu⟩ := h.users i
    exact ⟨userId, (ho.users i).trans hu⟩
  · exact (htasks t task ht).elim (fun hold => (h.tasks t task hold).onward ho) id
  · have hgranted : ∃ projectId organizationId, projectRoom organizationId projectId = room ∧
        s.store.Granted i projectId organizationId :=
      (hrooms i room hroom).elim (h.rooms i room) id
    obtain ⟨projectId, organizationId, heq, hg⟩ := hgranted
    exact ⟨projectId, organizationId, heq, hg.onward ho⟩

omit [DecidableEq τ] [DecidableEq ι] in
/-- What happens to the sockets without a lookup or an entry. -/
theorem keeps (h : Admitted s) {gateway : Gateway ι} (hk : Keeps s.store.gateway gateway) :
    Admitted { s with store := { s.store with gateway := gateway } } :=
  h.onward (.of_keeps hk) (fun _ _ ht => .inl ht) fun i room hroom => .inl (hk.joined i room hroom)

omit [DecidableEq ι] in
/-- Thread `t` goes on to `task`. -/
theorem goOn (h : Admitted s) (t : τ) {task : HubTask ι} {store : Hub ι}
    (ho : Hub.Onward s.store store) (hsane : ∀ own, task = .socket own → store.Sane own)
    (hrooms : ∀ i, ∀ room ∈ (store.gateway.socket i).joined,
      room ∈ (s.store.gateway.socket i).joined ∨ ∃ projectId organizationId,
        projectRoom organizationId projectId = room ∧
          s.store.Granted i projectId organizationId) :
    Admitted (⟨store, Function.update s.thread t task⟩ : HubPool τ ι) := by
  refine h.onward ho (fun t' own ht' => ?_) hrooms
  by_cases hself : t' = t
  · subst hself
    simp only [Function.update_self] at ht'
    exact .inr (hsane own ht')
  · simp only [Function.update_of_ne hself] at ht'
    exact .inl ht'

omit [DecidableEq ι] in
/-- A handler of a socket that lets nobody in. -/
theorem handle (h : Admitted s) (t : τ) {own : Task ι} {gateway : Gateway ι}
    (hk : Keeps s.store.gateway gateway) (more : List (JournalEntry ι))
    (hsane : ({ s.store with gateway := gateway, journal := s.store.journal ++ more } :
      Hub ι).Sane own) :
    Admitted (⟨{ s.store with gateway := gateway, journal := s.store.journal ++ more },
      Function.update s.thread t (.socket own)⟩ : HubPool τ ι) := by
  have ho : Hub.Onward s.store
      { s.store with gateway := gateway, journal := s.store.journal ++ more } :=
    ⟨rfl, hk.users, more, rfl, fun m hm => .inl ⟨m, hm, rfl, rfl⟩⟩
  refine h.goOn t ho (fun own' heq => ?_) fun i room hroom => .inl (hk.joined i room hroom)
  cases heq
  exact hsane

theorem socket (h : Admitted s) {task : Task ι} (ht : s.thread t = .socket task) :
    Admitted (s.advance (Hub.step env verify belowFirst g) t) := by
  have hsane := h.tasks t task ht
  unfold Pool.advance
  rw [ht, Hub.step]
  cases task with
  | connect | findUser | attach => exact hsane.elim
  | join client projectId => exact h.handle t (Hub.keeps_sockets s.store) _ rfl
  | done => exact h.handle t (Hub.keeps_sockets s.store) _ trivial
  | lookup client projectId userId =>
      rw [Gateway.step]
      cases hfound : s.store.world.db.joinLookup projectId userId with
      | none =>
          simp only [Hub.sockets, hfound]
          exact h.handle t (Hub.keeps_sockets s.store) _ trivial
      | some organizationId =>
          simp only [Hub.sockets, hfound, Task.admissions]
          refine h.handle t (Hub.keeps_sockets s.store) _ ?_
          obtain ⟨u, hu⟩ := h.users client
          have hown : userId = some u := hsane.trans hu
          rw [hown] at hfound
          refine ⟨Db.owner_of_joinLookup hfound, u, hu, s.store.journal, s.store.world.db, [], rfl,
            Db.joinLookup_some hfound, .inl (Db.joinLookup_some hfound)⟩
  | enterRoom client projectId userId organizationId seen =>
      rw [Gateway.step]
      have hk := keeps_enter s.store.sockets client projectId organizationId seen
      refine h.goOn t ⟨rfl, fun i => ?_, [], by simp [Task.admissions], fun m hm =>
        .inl ⟨m, hm, rfl, rfl⟩⟩ ?_ fun i room hroom => ?_
      · exact (hk.users i).trans (joinRoom_userOf ..)
      · rintro own ⟨⟩
        trivial
      · rcases mem_joined_of_joinRoom (hk.joined i room hroom) with hold | ⟨rfl, rfl⟩
        · exact .inl hold
        · exact .inr ⟨projectId, organizationId, rfl, hsane⟩

theorem run (h : Admitted s) :
    Admitted (s.advance (Hub.step env verify belowFirst g) t) := by
  cases ht : s.thread t with
  | socket task => exact h.socket ht
  | issue organizationId task =>
      unfold Pool.advance
      rw [ht, Hub.step]
      obtain ⟨hhomes, hmembers⟩ := (@IssueTask.step_spec organizationId.val g s.store.world
        belowFirst task).tenancy
      refine h.goOn t ⟨hhomes, fun _ => rfl, [], by simp, fun m hm => .inl ?_⟩ nofun
        fun i room hroom => .inl hroom
      exact ⟨m, hmembers ▸ hm, rfl, rfl⟩
  | org task =>
      unfold Pool.advance
      rw [ht, Hub.step]
      have hretains := Retains.step (@OrgTask.step_spec env g s.store.world task)
      refine h.goOn t ⟨hretains.homes, fun _ => rfl, _, rfl, fun m hm => ?_⟩ nofun
        fun i room hroom => .inl hroom
      refine (hretains.members m hm).imp_right fun hgone => ?_
      exact List.mem_map.2 ⟨m, hgone, rfl⟩

theorem next {a : HubAction τ ι} (h : Admitted s) : Admitted (s.next env verify a) := by
  cases a with
  | run t g belowFirst => exact h.run
  | leave client projectId =>
      refine h.keeps ?_
      unfold Gateway.onLeave
      split
      · exact .refl _
      · exact .foldl_leaveRoom ..
  | disconnect client => exact h.keeps (.disconnect ..)

end Admitted

/-- **Whom an issue event reaches was let into the project.**  In every run of joins, issue
requests and membership requests an event is delivered to a socket only if a lookup of a join of
that project found a membership of the socket's user in the project's organization; and that
membership is there at the delivery unless `removeMember` has deleted it after the lookup. -/
theorem delivered_to_admitted {s₀ s : HubPool τ ι} {as : List (HubAction τ ι)} (h₀ : HubStart s₀)
    (hrun : Run (HubStep env verify) s₀ as s) {t : τ} {client : ι}
    {organizationId projectId : JsString} (hd : s.Delivers t client organizationId projectId) :
    s.store.Granted client projectId organizationId := by
  have h : Admitted s := by
    refine hrun.invariant (P := Admitted) ?_ (.start h₀)
    rintro s a _ hs ⟨_, rfl⟩
    exact hs.next
  obtain ⟨org, a, ht, rfl, rfl, hroom⟩ := hd
  obtain ⟨p, o, heq, hgranted⟩ := h.rooms client _ hroom
  obtain ⟨rfl, rfl⟩ := projectRoom_eq (h.ids.owner hgranted.1) org.format heq
  exact hgranted

end Model

/-! ### Bob is removed with the board open -/

namespace Deliveries.Samples

open TokenService.Samples

def bob : User :=
  ⟨js "cbob", js "bob@demo.test", none, js "Bob", none, 0, 0, true, true, true⟩

/-- The demo organization with its owner and Bob. -/
def world : World :=
  { Demo.world with db := { Demo.world.db with
      users := [Demo.user, bob]
      memberships := [⟨js "cowner", Demo.userId.val, Demo.orgId.val, .OWNER, 0⟩,
        ⟨js "cmember", bob.id, Demo.orgId.val, .MEMBER, 0⟩] } }

/-- Bob's one socket has joined nothing yet. -/
def gateway : Gateway Unit :=
  ⟨world.db, fun _ => ⟨true, some ⟨bob.id, bob.name, none, []⟩, []⟩, fun _ => [], [], []⟩

/-- Bob opens the board, the owner removes him, the owner creates an issue. -/
def start : HubPool (Fin 3) Unit where
  store := ⟨world, gateway, []⟩
  thread
    | 0 => .socket (.join () Demo.projectId.val)
    | 1 => .org (.start (.removeMember Demo.orgId.val Demo.userId.val bob.id))
    | 2 => .issue Demo.orgId (.start (.create Demo.userId.val (js "PM") { title := js "Plan" }))

theorem start_start : HubStart start where
  sockets _ := ⟨_, rfl⟩
  tasks
    | 0 => .inl ⟨_, _, rfl⟩
    | 1 => .inr (.inr ⟨_, rfl⟩)
    | 2 => .inr (.inl ⟨_, _, rfl⟩)
  ids := by decide
  journal := rfl

def verify (_ : JsString) : Option JsString := none

def run (t : Fin 3) : HubAction (Fin 3) Unit := .run t first false

/-- The join and the request up to its event. -/
def opened : List (HubAction (Fin 3) Unit) := List.replicate 3 (run 0) ++ List.replicate 3 (run 2)

def removed : List (HubAction (Fin 3) Unit) :=
  List.replicate 3 (run 0) ++ List.replicate 3 (run 1) ++ List.replicate 3 (run 2)

def play (as : List (HubAction (Fin 3) Unit)) : HubPool (Fin 3) Unit :=
  as.foldl (HubPool.next env verify) start

theorem run_play (as : List (HubAction (Fin 3) Unit))
    (h : Along HubPool.Enabled (HubPool.next env verify) start as) :
    Run (HubStep env verify) start as (play as) := h.run

end Deliveries.Samples

open Deliveries.Samples in
theorem delivered_to_admitted_bob :
    (play opened).Delivers 2 () Demo.orgId.val Demo.projectId.val ∧
      (play opened).store.Granted () Demo.projectId.val Demo.orgId.val := by
  have hdelivers : (play opened).Delivers 2 () Demo.orgId.val Demo.projectId.val :=
    ⟨_, _, rfl, rfl, rfl, by decide⟩
  exact ⟨hdelivers, delivered_to_admitted start_start (run_play opened (by decide)) hdelivers⟩

open Deliveries.Samples TokenService.Samples in
/-- The owner's new issue is delivered to Bob, who has been removed. -/
theorem removed_still_receives :
    HubStart start ∧ Run (HubStep env verify) start removed (play removed) ∧
      (play removed).Delivers 2 () Demo.orgId.val Demo.projectId.val ∧
      (play removed).store.world.db.owner Demo.projectId.val = some Demo.orgId.val ∧
      (play removed).store.gateway.userOf () = some bob.id ∧
      ¬(play removed).store.world.db.Member Demo.orgId.val bob.id := by
  refine ⟨start_start, run_play removed (by decide), ⟨_, _, rfl, rfl, rfl, by decide⟩, ?_, ?_, ?_⟩
  · decide
  · decide
  · decide

end PmSaas
