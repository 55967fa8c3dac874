import PmSaas.Lib.Interleaving
import PmSaas.Orgs.OrgTasks

/-!
# Does a removed member stay out?

`acceptInvite` burns an invite when it makes its holder a member, but `addMember`, which adds a
registered user at once, and `removeMember` leave the invites of the address alone.  An invite sent
before the registration outlives both and lets the removed member in again (`removed_came_back`).

* `OrgTask.brings` — a request that is about to make the user a member, or to invite the address;
* `Db.Absent` — no membership, and nothing that could lead to one;
* `removed_stay_out` — in every run in which no removal leaves a way back, who was removed is no
  member until somebody starts to add the address again.
-/

namespace PmSaas

open Table JsString TransitionSystem

/-! ### What is kept in the tables -/

/-- The unique columns and foreign keys of users, organizations and memberships. -/
structure MemberTables (db : Db) : Prop where
  ids : UniqueKey Membership.id db.memberships
  pairs : UniqueKey (fun m : Membership => (m.userId, m.organizationId)) db.memberships
  users : ∀ m ∈ db.memberships, ∃ u ∈ db.users, u.id = m.userId
  organizations : ∀ m ∈ db.memberships, ∃ o ∈ db.organizations, o.id = m.organizationId

/-- The address is the user's, in whatever case it is written. -/
def Db.addresses (db : Db) (email userId : JsString) : Bool :=
  db.users.any fun u => u.id == userId && toLowerCase u.email == toLowerCase email

theorem Db.addresses_iff {db : Db} {email userId : JsString} :
    db.addresses email userId = true ↔
      ∃ u ∈ db.users, u.id = userId ∧ toLowerCase u.email = toLowerCase email := by
  simp [Db.addresses]

/-- A pending invite of the address to the organization. -/
def Db.invited (db : Db) (organizationId userId : JsString) (now : Date) : Bool :=
  db.invites.any fun i => i.organizationId == organizationId && db.addresses i.email userId &&
    OrgsService.pending now i

namespace OrgTask

/-- The request is about to make the user a member, or to invite the user's address. -/
def brings (db : Db) (organizationId userId : JsString) : OrgTask → Bool
  | .upserting user o _ _ _ => o == organizationId && user.id == userId
  | .inviting o _ email _ => o == organizationId && db.addresses email userId
  | .accepting u invite => invite.organizationId == organizationId && u == userId
  | _ => false

/-- The membership the request is about to delete. -/
def doomed : OrgTask → Option (Membership × JsString × JsString)
  | .deleting m organizationId _ targetUserId => some (m, organizationId, targetUserId)
  | _ => none

/-- The caller of an `acceptInvite` that is about to begin, as the token names the caller. -/
def caller : OrgTask → Option (JsString × JsString)
  | .start (.acceptInvite userId userEmail _) => some (userId, userEmail)
  | _ => none

/-- The removal that is done but for its audit row. -/
def removing : OrgTask → Option (JsString × JsString)
  | .auditing _ (.removed organizationId userId) => some (organizationId, userId)
  | _ => none

end OrgTask

/-- The user is no member of the organization, and no pending invite makes the user one. -/
structure Db.Absent (db : Db) (organizationId userId : JsString) (now : Date) : Prop where
  user : ∃ u ∈ db.users, u.id = userId
  organization : ∃ o ∈ db.organizations, o.id = organizationId
  none : ∀ m ∈ db.memberships, ¬(m.userId = userId ∧ m.organizationId = organizationId)
  uninvited : db.invited organizationId userId now = false

/-! ### What one step does to the tables -/

/-- The tables that matter here. -/
def Db.staffing (db : Db) := (db.users, db.organizations, db.memberships, db.invites)

theorem recorded_staffing (entry : AuditEntry) (id : Cuid) (now : Date) (w : World) :
    (w.recorded entry id now).db.staffing = w.db.staffing := by
  have hlater : Aftermath entry.organizationId w (w.recorded entry id now) := .recorded id now w
  obtain ⟨logs, _, hdb⟩ := hlater.db
  rw [hdb]
  rfl

theorem issueForUser_staffing (env : Env) (user : AuthUser) (device : DeviceInfo) (g : Gen)
    (w : World) :
    (TokenService.issueForUser env user device g w).2.db.staffing = w.db.staffing := by
  obtain ⟨tokens, h⟩ := TokenService.issueForUser_frame env user device g w
  rw [h]
  rfl

section Writes

variable {env : Env} {g : Gen} {db db' : Db} {w w' : World} {task task' : OrgTask}

namespace MemberTables

theorem congr (h : MemberTables db) (heq : db'.staffing = db.staffing) : MemberTables db' := by
  simp only [Db.staffing, Prod.mk.injEq] at heq
  obtain ⟨hu, ho, hm, _⟩ := heq
  constructor <;> simp only [hu, ho, hm]
  · exact h.ids
  · exact h.pairs
  · exact h.users
  · exact h.organizations

theorem rewrite (h : MemberTables db) (p : Membership → Bool) (role : Role) :
    MemberTables { db with
      memberships := updateWhere p (fun m => { m with role := role }) db.memberships } := by
  refine ⟨h.ids.update fun _ _ _ => rfl, h.pairs.update fun _ _ _ => rfl, fun m hm => ?_,
    fun m hm => ?_⟩
  · obtain ⟨old, hold, rfl⟩ := mem_updateWhere.1 hm
    split
    · exact h.users old hold
    · exact h.users old hold
  · obtain ⟨old, hold, rfl⟩ := mem_updateWhere.1 hm
    split
    · exact h.organizations old hold
    · exact h.organizations old hold

theorem upsert (h : MemberTables db) {userId organizationId : JsString} {role : Role}
    {id : Cuid} {now : Date} {m : Membership}
    (hu : db.upsertMembership userId organizationId role id now = .ok (m, db')) :
    MemberTables db' := by
  cases hold : db.findMembership userId organizationId with
  | some old =>
      rw [Db.upsertMembership_member hu hold]
      exact h.rewrite _ role
  | none =>
      rcases Db.upsertMembership_ok hu with rfl | ⟨rfl, hfresh, huser, horg⟩
      · exact h.rewrite _ role
      · have hnew : ∀ m ∈ db.memberships, (m.userId, m.organizationId) ≠ (userId, organizationId) := by
          intro m hm heq
          obtain ⟨hu, ho⟩ := Prod.mk.inj heq
          exact List.find?_eq_none.1 hold m hm (by simp [hu, ho])
        refine ⟨h.ids.insert hfresh, h.pairs.insert hnew, fun m hm => ?_, fun m hm => ?_⟩
        · rcases List.mem_append.1 hm with hm | hm
          · exact h.users m hm
          · rw [List.mem_singleton.1 hm]
            exact huser
        · rcases List.mem_append.1 hm with hm | hm
          · exact h.organizations m hm
          · rw [List.mem_singleton.1 hm]
            exact horg

theorem drop (h : MemberTables db) (id : JsString) : MemberTables (db.dropMembership id) :=
  ⟨h.ids.delete _, h.pairs.delete _, fun m hm => h.users m (mem_deleteWhere.1 hm).1,
    fun m hm => h.organizations m (mem_deleteWhere.1 hm).1⟩

theorem createUser (h : MemberTables db) {row user : User}
    (hc : db.createUser row = .ok (user, db')) : MemberTables db' := by
  obtain ⟨_, rfl, _⟩ := Db.createUser_ok hc
  refine ⟨h.ids, h.pairs, fun m hm => ?_, h.organizations⟩
  obtain ⟨u, hu, hid⟩ := h.users m hm
  exact ⟨u, List.mem_append_left _ hu, hid⟩

theorem createOrganization (h : MemberTables db) {userId name slug : JsString}
    {org : Organization}
    (hc : db.createOrganization (newOrganization userId name slug g) = .ok (org, db')) :
    MemberTables db' := by
  obtain ⟨_, rfl, hfresh, hfresh', huser⟩ := Db.createOrganization_ok hc
  have hnew : ∀ m ∈ db.memberships,
      (m.userId, m.organizationId) ≠ (userId, (g.cuid 0).val) := by
    intro m hm heq
    obtain ⟨o, ho, hid⟩ := h.organizations m hm
    exact (hfresh o ho).1 (hid.trans (Prod.mk.inj heq).2)
  refine ⟨h.ids.insert hfresh', h.pairs.insert hnew, fun m hm => ?_, fun m hm => ?_⟩
  · rcases List.mem_append.1 hm with hm | hm
    · exact h.users m hm
    · rw [List.mem_singleton.1 hm]
      exact huser
  · rcases List.mem_append.1 hm with hm | hm
    · obtain ⟨o, ho, hid⟩ := h.organizations m hm
      exact ⟨o, List.mem_append_left _ ho, hid⟩
    · rw [List.mem_singleton.1 hm]
      exact ⟨_, List.mem_append_right _ (List.mem_singleton_self _), rfl⟩

/-- **Every step keeps the tables.** -/
theorem step (h : MemberTables w.db) (hstep : OrgTask.Step env g w task task' w') :
    MemberTables w'.db := by
  cases hstep with
  | quiet | findUser | findNobody | findInvite | findMember | mail => exact h
  | createUser hc => exact h.createUser hc
  | createOrg hc => exact h.createOrganization hc
  | issue user device answer => exact h.congr (issueForUser_staffing ..)
  | upsert hu => exact h.upsert hu
  | invite hi =>
      rcases Db.upsertInvite_ok hi with rfl | rfl
      · exact ⟨h.ids, h.pairs, h.users, h.organizations⟩
      · exact ⟨h.ids, h.pairs, h.users, h.organizations⟩
  | accept hm hb =>
      obtain ⟨invites, rfl⟩ := Db.burnInvite_ok hb
      have h₁ := h.upsert hm
      exact ⟨h₁.ids, h₁.pairs, h₁.users, h₁.organizations⟩
  | update => exact h.rewrite _ _
  | delete => exact h.drop _
  | audit entry next => exact h.congr (recorded_staffing ..)

end MemberTables

/-! ### What one step can add -/

/-- The memberships of `db'` are those of `db`, in other roles, and new ones: of whom the request
brings, or in an organization that is new itself. -/
def Extends (g : Gen) (task : OrgTask) (db db' : Db) : Prop :=
  ∀ m ∈ db'.memberships,
    (∃ old ∈ db.memberships, old.id = m.id ∧ old.userId = m.userId ∧
      old.organizationId = m.organizationId) ∨
    (m.id = (g.cuid 0).val ∨ m.id = (g.cuid 1).val) ∧
      (task.brings db m.organizationId m.userId = true ∨
        ∀ o ∈ db.organizations, o.id ≠ m.organizationId)

namespace Extends

theorem same (h : db'.staffing = db.staffing) : Extends g task db db' := by
  simp only [Db.staffing, Prod.mk.injEq] at h
  intro m hm
  rw [h.2.2.1] at hm
  exact .inl ⟨m, hm, rfl, rfl, rfl⟩

theorem upsert {userId organizationId : JsString} {role : Role} {m : Membership}
    (hu : db.upsertMembership userId organizationId role (g.cuid 0) g.now = .ok (m, db'))
    (hbrings : task.brings db organizationId userId = true) : Extends g task db db' := by
  intro m hm
  rcases Db.upsertMembership_ok hu with rfl | ⟨rfl, _, _, _⟩
  · obtain ⟨old, hold, rfl⟩ := mem_updateWhere.1 hm
    refine .inl ⟨old, hold, ?_⟩
    split <;> exact ⟨rfl, rfl, rfl⟩
  · rcases List.mem_append.1 hm with hm | hm
    · exact .inl ⟨m, hm, rfl, rfl, rfl⟩
    · rw [List.mem_singleton.1 hm]
      exact .inr ⟨.inl rfl, .inl hbrings⟩

theorem step (h : OrgTask.Step env g w task task' w') : Extends g task w.db w'.db := by
  cases h with
  | quiet | findUser | findNobody | findInvite | findMember | mail => exact .same rfl
  | createUser hc =>
      obtain ⟨_, rfl, _⟩ := Db.createUser_ok hc
      exact fun m hm => .inl ⟨m, hm, rfl, rfl, rfl⟩
  | createOrg hc =>
      obtain ⟨_, rfl, hfresh, _⟩ := Db.createOrganization_ok hc
      intro m hm
      rcases List.mem_append.1 hm with hm | hm
      · exact .inl ⟨m, hm, rfl, rfl, rfl⟩
      · rw [List.mem_singleton.1 hm]
        exact .inr ⟨.inr rfl, .inr fun o ho => (hfresh o ho).1⟩
  | issue user device answer => exact .same (issueForUser_staffing ..)
  | upsert hu => exact .upsert hu (by simp [OrgTask.brings])
  | invite hi =>
      rcases Db.upsertInvite_ok hi with rfl | rfl
      · exact fun m hm => .inl ⟨m, hm, rfl, rfl, rfl⟩
      · exact fun m hm => .inl ⟨m, hm, rfl, rfl, rfl⟩
  | accept hm hb =>
      obtain ⟨invites, rfl⟩ := Db.burnInvite_ok hb
      exact fun m => Extends.upsert hm (by simp [OrgTask.brings]) m
  | update =>
      intro m hm
      obtain ⟨old, hold, rfl⟩ := mem_updateWhere.1 hm
      refine .inl ⟨old, hold, ?_⟩
      split <;> exact ⟨rfl, rfl, rfl⟩
  | delete => exact fun m hm => .inl ⟨m, (mem_deleteWhere.1 hm).1, rfl, rfl, rfl⟩
  | audit entry next => exact .same (recorded_staffing ..)

end Extends

/-- Users and organizations are only added. -/
structure Peopled (db db' : Db) : Prop where
  users : ∀ userId, (∃ u ∈ db.users, u.id = userId) → (∃ u ∈ db'.users, u.id = userId) ∧
    ∀ email, db'.addresses email userId = db.addresses email userId
  organizations : ∀ o ∈ db.organizations, o ∈ db'.organizations

namespace Peopled

theorem same (hu : db'.users = db.users) (ho : db'.organizations = db.organizations) :
    Peopled db db' := by
  refine ⟨fun userId huser => ⟨hu ▸ huser, fun email => ?_⟩, fun o h => ho ▸ h⟩
  rw [Db.addresses, hu, Db.addresses]

theorem still (h : db'.staffing = db.staffing) : Peopled db db' := by
  simp only [Db.staffing, Prod.mk.injEq] at h
  exact .same h.1 h.2.1

theorem upsert {userId organizationId : JsString} {role : Role} {id : Cuid} {now : Date}
    {m : Membership} (hu : db.upsertMembership userId organizationId role id now = .ok (m, db')) :
    Peopled db db' := by
  rcases Db.upsertMembership_ok hu with rfl | ⟨rfl, _, _, _⟩
  · exact .same rfl rfl
  · exact .same rfl rfl

theorem step (h : OrgTask.Step env g w task task' w') : Peopled w.db w'.db := by
  cases h with
  | quiet | findUser | findNobody | findInvite | findMember | mail | update | delete =>
      exact .same rfl rfl
  | createUser hc =>
      obtain ⟨_, rfl, hfresh⟩ := Db.createUser_ok hc
      refine ⟨?_, fun o ho => ho⟩
      rintro userId ⟨u, hu, rfl⟩
      refine ⟨⟨u, List.mem_append_left _ hu, rfl⟩, fun email => ?_⟩
      simp [Db.addresses, List.any_append, Ne.symm (hfresh u hu)]
  | createOrg hc =>
      obtain ⟨_, rfl, _⟩ := Db.createOrganization_ok hc
      exact ⟨fun userId huser => ⟨huser, fun _ => rfl⟩, fun o ho => List.mem_append_left _ ho⟩
  | issue user device answer => exact .still (issueForUser_staffing ..)
  | upsert hu => exact .upsert hu
  | invite hi =>
      rcases Db.upsertInvite_ok hi with rfl | rfl
      · exact .same rfl rfl
      · exact .same rfl rfl
  | accept hm hb =>
      obtain ⟨invites, rfl⟩ := Db.burnInvite_ok hb
      have hpeopled := upsert hm
      exact ⟨hpeopled.users, hpeopled.organizations⟩
  | audit entry next => exact .still (recorded_staffing ..)

end Peopled

/-- An invite is an old one, burnt, or of the address that the request invites. -/
theorem invites_step (h : OrgTask.Step env g w task task' w') {i : Invite}
    (hi : i ∈ w'.db.invites) : i ∈ w.db.invites ∨ i.acceptedAt.isSome = true ∨
      ∀ userId, w.db.addresses i.email userId = true →
        task.brings w.db i.organizationId userId = true := by
  have hsame : w'.db.staffing = w.db.staffing → i ∈ w.db.invites := by
    intro heq
    simp only [Db.staffing, Prod.mk.injEq] at heq
    exact heq.2.2.2 ▸ hi
  cases h with
  | quiet | findUser | findNobody | findInvite | findMember | mail | update | delete =>
      exact .inl hi
  | createUser hc =>
      obtain ⟨_, rfl, _⟩ := Db.createUser_ok hc
      exact .inl hi
  | createOrg hc =>
      obtain ⟨_, rfl, _⟩ := Db.createOrganization_ok hc
      exact .inl hi
  | issue user device answer => exact .inl (hsame (issueForUser_staffing ..))
  | upsert hu =>
      rcases Db.upsertMembership_ok hu with rfl | ⟨rfl, _, _, _⟩
      · exact .inl hi
      · exact .inl hi
  | invite hinvite =>
      rcases Db.mem_upsertInvite hinvite hi with hold | ⟨id, createdAt, rfl⟩
      · exact .inl hold
      · refine .inr (.inr fun userId haddress => ?_)
        simpa [OrgTask.brings, OrgsService.newInvite] using haddress
  | accept hm hb =>
      obtain ⟨old, hold, ⟨_, rfl⟩ | ⟨_, rfl⟩⟩ := Db.mem_burnInvite hb hi
      · refine .inl ?_
        rcases Db.upsertMembership_ok hm with rfl | ⟨rfl, _, _, _⟩
        · exact hold
        · exact hold
      · exact .inr (.inl rfl)
  | audit entry next => exact .inl (hsame (recorded_staffing ..))

/-! ### Staying out -/

section Absence

variable {organizationId userId : JsString} {now : Date}

theorem Db.invited_eq_false : db.invited organizationId userId now = false ↔
    ∀ i ∈ db.invites, i.organizationId = organizationId → db.addresses i.email userId = true →
      OrgsService.pending now i = false := by
  simp only [Db.invited, List.any_eq_false, Bool.and_eq_true, beq_iff_eq, not_and,
    Bool.not_eq_true, and_imp]

/-- An invite that is pending was so before. -/
theorem pending_mono {i : Invite} (hlater : now ≤ g.now)
    (h : OrgsService.pending now i = false) : OrgsService.pending g.now i = false := by
  simp only [OrgsService.pending, Bool.and_eq_false_iff, Bool.not_eq_false',
    decide_eq_true_eq] at h ⊢
  exact h.imp_right fun hexpired => lt_of_lt_of_le hexpired hlater

/-- **Who is absent stays so**, unless the request brings the user back. -/
theorem Db.Absent.step (h : w.db.Absent organizationId userId now) (hlater : now ≤ g.now)
    (hidle : task.brings w.db organizationId userId = false)
    (hstep : OrgTask.Step env g w task task' w') :
    w'.db.Absent organizationId userId g.now := by
  have hpeopled := Peopled.step hstep
  obtain ⟨huser, haddresses⟩ := hpeopled.users userId h.user
  obtain ⟨o, ho, hoid⟩ := h.organization
  refine ⟨huser, ⟨o, hpeopled.organizations o ho, hoid⟩, ?_, Db.invited_eq_false.2 ?_⟩
  · rintro m hm ⟨rfl, rfl⟩
    rcases Extends.step hstep m hm with ⟨old, hold, _, hu, horg⟩ | ⟨_, hbrings | hfresh⟩
    · exact h.none old hold ⟨hu, horg⟩
    · rw [hidle] at hbrings
      cases hbrings
    · exact hfresh o ho hoid
  · intro i hi horg haddress
    rw [haddresses] at haddress
    rcases invites_step hstep hi with hold | hburnt | hbrings
    · exact pending_mono hlater (Db.invited_eq_false.1 h.uninvited i hold horg haddress)
    · rw [OrgsService.pending, Option.isNone_eq_false_iff.2 hburnt]
      rfl
    · rw [← horg, hbrings userId haddress] at hidle
      cases hidle

/-- A request that is not for the user does not come to bring the user back. -/
theorem brings_step (h : w.db.Absent organizationId userId now) (hlater : now ≤ g.now)
    (hadd : ∀ actorId email role, task = .start (.addMember organizationId actorId email role) →
      w.db.addresses email userId = false)
    (hown : ∀ c ∈ task.caller, ∃ u ∈ w.db.users, u.id = c.1 ∧ u.email = c.2)
    (hstep : OrgTask.Step env g w task task' w') :
    task'.brings w'.db organizationId userId = false := by
  obtain ⟨_, haddresses⟩ := (Peopled.step hstep).users userId h.user
  cases hstep with
  | quiet hquiet =>
      rcases hquiet with ⟨_, rfl⟩ | ⟨_, _, rfl⟩ | ⟨_, _, _, _, rfl, ⟨_, rfl⟩ | ⟨_, rfl⟩⟩ |
        ⟨_, _, _, _, rfl⟩ <;> rfl
  | @findUser o actorId email role user known =>
      by_contra hbrings
      simp only [OrgTask.brings, Bool.not_eq_false, Bool.and_eq_true, beq_iff_eq] at hbrings
      obtain ⟨rfl, rfl⟩ := hbrings
      have hnot := hadd actorId email role rfl
      have hyes : w.db.addresses email user.id = true := by
        refine Db.addresses_iff.2 ⟨user, List.mem_of_find?_eq_some known, rfl, ?_⟩
        have hemail : user.email = toLowerCase email := by simpa using List.find?_some known
        rw [hemail, toLowerCase_toLowerCase]
      rw [hyes] at hnot
      cases hnot
  | @findNobody o actorId email role unknown =>
      by_contra hbrings
      simp only [OrgTask.brings, Bool.not_eq_false, Bool.and_eq_true, beq_iff_eq] at hbrings
      obtain ⟨rfl, haddress⟩ := hbrings
      have hnot := hadd actorId email role rfl
      rw [Db.addresses, toLowerCase_toLowerCase] at haddress
      rw [Db.addresses, haddress] at hnot
      cases hnot
  | @findInvite u userEmail token invite known pending addressed =>
      by_contra hbrings
      simp only [OrgTask.brings, Bool.not_eq_false, Bool.and_eq_true, beq_iff_eq] at hbrings
      obtain ⟨horg, rfl⟩ := hbrings
      obtain ⟨user, huser, hid, hemail⟩ := hown _ rfl
      have haddress : w.db.addresses invite.email u = true :=
        Db.addresses_iff.2 ⟨user, huser, hid, by rw [hemail, addressed]⟩
      have hinvite : invite ∈ w.db.invites := List.mem_of_find?_eq_some known
      have hnot := pending_mono hlater
        (Db.invited_eq_false.1 h.uninvited invite hinvite horg haddress)
      rw [pending] at hnot
      cases hnot
  | findMember | invite | mail | createOrg | issue | upsert | accept | update | delete => rfl
  | createUser hc hnext =>
      rcases hnext with ⟨name, rfl⟩ | rfl <;> rfl
  | audit entry next hafter =>
      rcases hafter with ⟨answer, rfl⟩ | ⟨user, device, rfl⟩ <;> rfl

theorem brings_congr (h : ∀ email, db'.addresses email userId = db.addresses email userId)
    (task : OrgTask) : task.brings db' organizationId userId =
      task.brings db organizationId userId := by
  cases task with
  | inviting o actorId email role => rw [OrgTask.brings, OrgTask.brings, h]
  | _ => rfl

end Absence

/-- A request that is about to delete a membership has just read it. -/
theorem doomed_step (h : OrgTask.Step env g w task task' w') {d : Membership × JsString × JsString}
    (hd : d ∈ task'.doomed) : d.1 ∈ w.db.memberships ∧ d.1.userId = d.2.2 ∧
      d.1.organizationId = d.2.1 ∧ w' = w := by
  cases h with
  | quiet hquiet =>
      rcases hquiet with ⟨_, rfl⟩ | ⟨_, _, rfl⟩ | ⟨_, _, _, _, rfl, ⟨_, rfl⟩ | ⟨_, rfl⟩⟩ |
        ⟨_, _, _, _, rfl⟩ <;> cases hd
  | findMember known role =>
      obtain rfl := Option.some.inj hd
      obtain ⟨hm, hu, ho⟩ := Db.findMembership_some known
      exact ⟨hm, hu, ho, rfl⟩
  | createUser hc hnext => rcases hnext with ⟨name, rfl⟩ | rfl <;> cases hd
  | audit entry next hafter =>
      rcases hafter with ⟨answer, rfl⟩ | ⟨user, device, rfl⟩ <;> cases hd
  | _ => cases hd

/-- A removal is done but for its audit row when the row is deleted. -/
theorem removing_step (h : OrgTask.Step env g w task task' w') {organizationId userId : JsString}
    (hremoving : task'.removing = some (organizationId, userId)) :
    ∃ m actorId, task = .deleting m organizationId actorId userId ∧
      (∃ row ∈ w.db.memberships, row.id = m.id) ∧
      w' = { w with db := w.db.dropMembership m.id } := by
  cases h with
  | quiet hquiet =>
      rcases hquiet with ⟨_, rfl⟩ | ⟨_, _, rfl⟩ | ⟨_, _, _, _, rfl, ⟨_, rfl⟩ | ⟨_, rfl⟩⟩ |
        ⟨_, _, _, _, rfl⟩ <;> cases hremoving
  | @delete m o actorId u entry known =>
      obtain ⟨rfl, rfl⟩ := Prod.mk.inj (Option.some.inj hremoving)
      exact ⟨m, actorId, rfl, known, rfl⟩
  | createUser hc hnext => rcases hnext with ⟨name, rfl⟩ | rfl <;> cases hremoving
  | audit entry next hafter =>
      rcases hafter with ⟨answer, rfl⟩ | ⟨user, device, rfl⟩ <;> cases hremoving
  | _ => cases hremoving

end Writes

/-! ### The system -/

/-- The requests, the clock, and who was removed from which organization. -/
structure Staff (τ : Type*) where
  pool : Pool τ OrgTask World
  now : Date
  /-- Removals that are complete, unless an `addMember` of the address was started since. -/
  removed : List (JsString × JsString)

section Model

variable {τ : Type*} [DecidableEq τ]

namespace Staff

/-- The removals after thread `t` has made a step. -/
def note (s : Staff τ) (t : τ) : List (JsString × JsString) :=
  match s.pool.thread t with
  | .start (.addMember organizationId _ email _) =>
      s.removed.filter fun r => !(r.1 == organizationId && s.pool.store.db.addresses email r.2)
  | task => (task.removing).toList ++ s.removed

def next (env : Env) (s : Staff τ) (a : τ × Gen) : Staff τ :=
  ⟨s.pool.advance (OrgTask.step env a.2) a.1, a.2.now, s.note a.1⟩

/-- The clock goes on, `cuid()` does not repeat the id of a row that is about to be deleted, and an
invite is accepted with the e-mail of the caller. -/
def Enabled (s : Staff τ) (a : τ × Gen) : Prop :=
  s.now ≤ a.2.now ∧
    (∀ t, ∀ d ∈ (s.pool.thread t).doomed, (a.2.cuid 0).val ≠ d.1.id ∧ (a.2.cuid 1).val ≠ d.1.id) ∧
    ∀ c ∈ (s.pool.thread a.1).caller, ∃ u ∈ s.pool.store.db.users, u.id = c.1 ∧ u.email = c.2

instance [Fintype τ] (s : Staff τ) (a : τ × Gen) : Decidable (s.Enabled a) :=
  inferInstanceAs (Decidable (_ ∧ (∀ _, ∀ _ ∈ _, _) ∧ ∀ _ ∈ _, _))

/-- Nothing on its way makes the user a member again. -/
def NoWayBack (s : Staff τ) (organizationId userId : JsString) (now : Date) : Prop :=
  s.pool.store.db.invited organizationId userId now = false ∧
    ∀ t, (s.pool.thread t).brings s.pool.store.db organizationId userId = false

instance [Fintype τ] (s : Staff τ) (organizationId userId : JsString) (now : Date) :
    Decidable (s.NoWayBack organizationId userId now) :=
  inferInstanceAs (Decidable (_ ∧ ∀ _, _ = _))

/-- A removal leaves no way back, and the address is not added while its removal is between the
deletion and its end. -/
def Allows (s : Staff τ) (now : Date) : OrgTask → Prop
  | .deleting _ organizationId _ userId => s.NoWayBack organizationId userId now
  | .start (.addMember organizationId _ email _) =>
      ∀ t, ∀ r ∈ (s.pool.thread t).removing,
        ¬(r.1 = organizationId ∧ s.pool.store.db.addresses email r.2 = true)
  | _ => True

instance [Fintype τ] (s : Staff τ) (now : Date) : ∀ task, Decidable (s.Allows now task)
  | .deleting _ organizationId _ userId =>
      inferInstanceAs (Decidable (s.NoWayBack organizationId userId now))
  | .start (.addMember _ _ _ _) => inferInstanceAs (Decidable (∀ _, ∀ _ ∈ _, _))
  | .start (.register _ _) | .start (.acceptInvite _ _ _) | .start (.updateMemberRole _ _ _ _)
  | .start (.removeMember _ _ _) | .creatingUser _ _ | .slugging _ _ _ _ | .creatingOrg _ _ _ _
  | .issuing _ _ | .upserting _ _ _ _ _ | .inviting _ _ _ _ | .mailing _ _ _ _ _ _
  | .accepting _ _ | .updating _ _ _ _ | .auditing _ _ | .done _ => isTrue trivial

/-- The condition on a step. -/
def Final (s : Staff τ) (a : τ × Gen) : Prop := s.Allows a.2.now (s.pool.thread a.1)

instance [Fintype τ] (s : Staff τ) (a : τ × Gen) : Decidable (s.Final a) :=
  inferInstanceAs (Decidable (s.Allows _ _))

end Staff

/-- One database call of a request. -/
abbrev StaffStep (env : Env) : Staff τ → τ × Gen → Staff τ → Prop :=
  Steps Staff.Enabled (Staff.next env)

/-- Every request still to begin. -/
structure StaffStart (s : Staff τ) : Prop where
  tables : MemberTables s.pool.store.db
  tasks : ∀ t, ∃ request, s.pool.thread t = .start request
  removed : s.removed = []

namespace Staff

/-- The user was removed from the organization, or is but for the audit row. -/
def Out (s : Staff τ) (organizationId userId : JsString) : Prop :=
  (organizationId, userId) ∈ s.removed ∨
    ∃ t, (s.pool.thread t).removing = some (organizationId, userId)

/-- What every step of a run without ways back keeps. -/
structure Sound (s : Staff τ) : Prop where
  tables : MemberTables s.pool.store.db
  doomed : ∀ t, ∀ d ∈ (s.pool.thread t).doomed, ∀ m ∈ s.pool.store.db.memberships,
    m.id = d.1.id → m.userId = d.2.2 ∧ m.organizationId = d.2.1
  absent : ∀ organizationId userId, s.Out organizationId userId →
    s.pool.store.db.Absent organizationId userId s.now
  idle : ∀ organizationId userId, s.Out organizationId userId →
    ∀ t, (s.pool.thread t).brings s.pool.store.db organizationId userId = false

section Steps

variable {env : Env} {s : Staff τ} {t : τ} {g : Gen} {organizationId userId : JsString}

/-- Who is out after a step was so before and is not being added, or is deleted by the step. -/
theorem out_next (hout : (s.next env (t, g)).Out organizationId userId)
    (hfinal : s.Final (t, g)) :
    (s.Out organizationId userId ∧ ∀ actorId email role,
        s.pool.thread t = .start (.addMember organizationId actorId email role) →
        s.pool.store.db.addresses email userId = false) ∨
      ((s.next env (t, g)).pool.thread t).removing = some (organizationId, userId) := by
  have hadded : ∀ {t'}, (s.pool.thread t').removing = some (organizationId, userId) →
      ∀ actorId email role,
        s.pool.thread t = .start (.addMember organizationId actorId email role) →
        s.pool.store.db.addresses email userId = false := by
    intro t' ht' actorId email role ht
    simp only [Final, ht, Allows] at hfinal
    have hnot := hfinal t' _ ht'
    simpa using hnot
  rcases hout with hremoved | ⟨t', ht'⟩
  · refine .inl ?_
    simp only [next, note] at hremoved
    split at hremoved
    · rename_i o _ email _ ht
      obtain ⟨hin, hnot⟩ := List.mem_filter.1 hremoved
      refine ⟨.inl hin, fun actorId email' role' ht' => ?_⟩
      rw [ht] at ht'
      cases ht'
      simpa using hnot
    · rename_i task ht
      rcases List.mem_append.1 hremoved with hin | hin
      · have hremoving := Option.mem_toList.1 hin
        exact ⟨.inr ⟨t, hremoving⟩, hadded hremoving⟩
      · refine ⟨.inl hin, fun actorId email role ht' => ?_⟩
        exact absurd ht' (ht _ _ _ _)
  · by_cases hne : t' = t
    · subst hne
      exact .inr ht'
    · rw [next, Pool.advance_thread_of_ne _ _ hne] at ht'
      exact .inl ⟨.inr ⟨t', ht'⟩, hadded ht'⟩

/-- The deletion of a membership leaves the user absent, if it leaves no way back. -/
theorem Sound.deleted (h : s.Sound) (hfinal : s.Final (t, g))
    (hremoving : ((s.next env (t, g)).pool.thread t).removing = some (organizationId, userId)) :
    (s.next env (t, g)).pool.store.db.Absent organizationId userId g.now ∧
      ∀ t', ((s.next env (t, g)).pool.thread t').brings (s.next env (t, g)).pool.store.db
        organizationId userId = false := by
  have hstep : OrgTask.Step env g s.pool.store (s.pool.thread t)
      ((s.next env (t, g)).pool.thread t) (s.next env (t, g)).pool.store := by
    rw [next, Pool.advance_thread_self]
    exact OrgTask.step_spec _
  have hidle : ((s.next env (t, g)).pool.thread t).brings (s.next env (t, g)).pool.store.db
      organizationId userId = false := by
    generalize (s.next env (t, g)).pool.thread t = task' at hremoving
    cases task' with
    | auditing entry next => rfl
    | _ => cases hremoving
  obtain ⟨m, actorId, ht, ⟨row, hrow, hid⟩, hstore⟩ := removing_step hstep hremoving
  simp only [Final, ht, Allows] at hfinal
  obtain ⟨hu, ho⟩ := h.doomed t _ (by rw [ht]; rfl) row hrow hid
  rw [hstore]
  refine ⟨⟨?_, ?_, ?_, hfinal.1⟩, fun t' => ?_⟩
  · obtain ⟨u, huser, hid⟩ := h.tables.users row hrow
    exact ⟨u, huser, hid.trans hu⟩
  · obtain ⟨o, horg, hid⟩ := h.tables.organizations row hrow
    exact ⟨o, horg, hid.trans ho⟩
  · rintro m' hm' ⟨hu', ho'⟩
    obtain ⟨hm', hne⟩ := mem_deleteWhere.1 hm'
    obtain rfl := h.tables.pairs.eq_of_key_eq hm' hrow
      (Prod.ext (hu'.trans hu.symm) (ho'.trans ho.symm))
    rw [hid, beq_self_eq_true] at hne
    cases hne
  · by_cases hne : t' = t
    · rw [hne]
      rwa [hstore] at hidle
    · rw [next, Pool.advance_thread_of_ne _ _ hne]
      exact hfinal.2 t'

/-- **What every step keeps.** -/
theorem Sound.next (h : s.Sound) (henabled : s.Enabled (t, g)) (hfinal : s.Final (t, g)) :
    (s.next env (t, g)).Sound := by
  have hstep : OrgTask.Step env g s.pool.store (s.pool.thread t)
      ((s.next env (t, g)).pool.thread t) (s.next env (t, g)).pool.store := by
    rw [Staff.next, Pool.advance_thread_self]
    exact OrgTask.step_spec _
  obtain ⟨hlater, hfresh, hown⟩ := henabled
  have hold : ∀ {organizationId userId}, s.Out organizationId userId →
      (∀ actorId email role,
        s.pool.thread t = .start (.addMember organizationId actorId email role) →
        s.pool.store.db.addresses email userId = false) →
      (s.next env (t, g)).pool.store.db.Absent organizationId userId g.now ∧
        ∀ t', ((s.next env (t, g)).pool.thread t').brings (s.next env (t, g)).pool.store.db
          organizationId userId = false := by
    intro organizationId userId hout hadd
    have habsent := h.absent organizationId userId hout
    have hidle := h.idle organizationId userId hout
    refine ⟨habsent.step hlater (hidle t) hstep, fun t' => ?_⟩
    by_cases hne : t' = t
    · rw [hne]
      exact brings_step habsent hlater hadd hown hstep
    · have hsame : (s.next env (t, g)).pool.thread t' = s.pool.thread t' :=
        Pool.advance_thread_of_ne _ _ hne
      rw [hsame, brings_congr ((Peopled.step hstep).users userId habsent.user).2]
      exact hidle t'
  have hout : ∀ organizationId userId, (s.next env (t, g)).Out organizationId userId →
      (s.next env (t, g)).pool.store.db.Absent organizationId userId g.now ∧
        ∀ t', ((s.next env (t, g)).pool.thread t').brings (s.next env (t, g)).pool.store.db
          organizationId userId = false := by
    intro organizationId userId hout
    rcases out_next hout hfinal with ⟨hout, hadd⟩ | hremoving
    · exact hold hout hadd
    · exact h.deleted hfinal hremoving
  refine ⟨h.tables.step hstep, fun t' d hd m hm hid => ?_, fun o u hou => (hout o u hou).1,
    fun o u hou => (hout o u hou).2⟩
  by_cases hne : t' = t
  · rw [hne] at hd
    obtain ⟨hd, hu, ho, hsame⟩ := doomed_step hstep hd
    rw [hsame] at hm
    obtain rfl := h.tables.ids.eq_of_key_eq hm hd hid
    exact ⟨hu, ho⟩
  · rw [Staff.next, Pool.advance_thread_of_ne _ _ hne] at hd
    obtain ⟨old, hold, hoid, hu, ho⟩ | ⟨hnew, _⟩ := Extends.step hstep m hm
    · rw [← hu, ← ho]
      exact h.doomed t' d hd old hold (hoid.trans hid)
    · obtain ⟨hne₀, hne₁⟩ := hfresh t' d hd
      rcases hnew with hnew | hnew
      · exact absurd (hnew.symm.trans hid) hne₀
      · exact absurd (hnew.symm.trans hid) hne₁

omit [DecidableEq τ] in
theorem Sound.start (h : StaffStart s) : s.Sound := by
  have hout : ∀ o u, ¬s.Out o u := by
    rintro o u (hin | ⟨t, ht⟩)
    · rw [h.removed] at hin
      exact List.not_mem_nil hin
    · obtain ⟨request, hrequest⟩ := h.tasks t
      rw [hrequest] at ht
      cases ht
  refine ⟨h.tables, fun t d hd => ?_, fun o u hou => absurd hou (hout o u),
    fun o u hou => absurd hou (hout o u)⟩
  obtain ⟨request, hrequest⟩ := h.tasks t
  rw [hrequest] at hd
  cases hd

end Steps

end Staff

/-- **Removed members stay out, as long as no removal leaves a way back.**  In every run of
requests whose steps all meet the condition, who was removed from an organization is no member of
it until somebody starts to add the address. -/
theorem removed_stay_out (env : Env) {s₀ s : Staff τ} {as : List (τ × Gen)}
    (hstart : StaffStart s₀) (hrun : Run (Guarded (StaffStep env) Staff.Final) s₀ as s)
    {organizationId userId : JsString} (hremoved : (organizationId, userId) ∈ s.removed) :
    ∀ m ∈ s.pool.store.db.memberships,
      ¬(m.userId = userId ∧ m.organizationId = organizationId) := by
  have hsound : s.Sound := hrun.invariant (P := Staff.Sound) (fun s a s' hs hstep => by
    obtain ⟨⟨henabled, rfl⟩, hfinal⟩ := hstep
    exact hs.next henabled hfinal) (.start hstart)
  exact (hsound.absent organizationId userId (.inl hremoved)).none

end Model

/-! ### Bob comes and goes -/

namespace Removal.Samples

open TokenService.Samples

def bobId : Cuid := ⟨js "cbob", by decide⟩

def bob : JsString := js "bob@demo.test"

/-- The demo organization with its owner. -/
def world : World :=
  { Demo.world with db := { Demo.world.db with
      memberships := [⟨js "cowner", Demo.userId.val, Demo.orgId.val, .OWNER, 0⟩] } }

def addBob : OrgRequest :=
  .addMember Demo.orgId.val Demo.userId.val bob ⟨.MEMBER, member_ne_owner⟩

/-- Bob is invited, registers, is added, is removed, and accepts his invite. -/
def request : Fin 5 → OrgRequest
  | 0 => addBob
  | 1 => .register ⟨bob, js "correct horse", js "Bob", none⟩ device
  | 2 => addBob
  | 3 => .removeMember Demo.orgId.val Demo.userId.val bobId.val
  | 4 => .acceptInvite bobId.val bob (js "i0")

def start : Staff (Fin 5) := ⟨⟨world, fun t => .start (request t)⟩, 0, []⟩

theorem start_ok : StaffStart start where
  tables := ⟨by decide, by decide, by decide, by decide⟩
  tasks t := ⟨_, rfl⟩
  removed := rfl

/-- Every generated id of the step is `id`. -/
def gen (id : Cuid) : Gen := ⟨0, fun _ => id, fun _ => js "i0"⟩

def invited : List (Fin 5 × Gen) := List.replicate 4 (0, gen ⟨js "cinvite", by decide⟩)

def stayed : List (Fin 5 × Gen) :=
  List.replicate 3 (1, gen bobId) ++ List.replicate 3 (2, gen ⟨js "crow", by decide⟩) ++
    List.replicate 3 (3, gen Demo.projectId)

def back : List (Fin 5 × Gen) := List.replicate 2 (4, gen ⟨js "cagain", by decide⟩)

def play (as : List (Fin 5 × Gen)) : Staff (Fin 5) := as.foldl (Staff.next env) start

end Removal.Samples

open Removal.Samples TokenService.Samples in
theorem removed_stay_out_bob :
    (Demo.orgId.val, bobId.val) ∈ (play stayed).removed ∧
      ∀ m ∈ (play stayed).pool.store.db.memberships,
        ¬(m.userId = bobId.val ∧ m.organizationId = Demo.orgId.val) := by
  have hremoved : (Demo.orgId.val, bobId.val) ∈ (play stayed).removed := by decide
  exact ⟨hremoved, removed_stay_out env start_ok (Along.guarded (by decide)) hremoved⟩

open Removal.Samples TokenService.Samples in
/-- The invite from before his registration lets Bob in again after his removal. -/
theorem removed_came_back :
    StaffStart start ∧
      Run (StaffStep env) start (invited ++ stayed ++ back) (play (invited ++ stayed ++ back)) ∧
      (Demo.orgId.val, bobId.val) ∈ (play (invited ++ stayed ++ back)).removed ∧
      ∃ m ∈ (play (invited ++ stayed ++ back)).pool.store.db.memberships,
        m.userId = bobId.val ∧ m.organizationId = Demo.orgId.val :=
  ⟨start_ok, Along.run (by decide), by decide, by decide⟩

end PmSaas
