import PmSaas.Api.AuditReplay

/-!
# The address of an issue

An issue is linked to by the slug of its organization, the key of its project and its number.  None
of the three is looked up by id, so that a link goes on meaning the same issue has to follow from
what calls do to the tables: organizations and projects stay, and a new issue gets a number above
all that its project ever gave.

* `Db.Onward`: what every call keeps of the addresses;
* `address_permanent`: an address that shows an issue at two times shows that issue at all times
  between them, to every member; so it never shows another, nor comes back after a removal.
-/

namespace PmSaas

open Table TransitionSystem

/-- What an issue is created with and no call writes again. -/
def Issue.origin (i : Issue) : JsString × JsString × JsString × ℕ × JsString × Date :=
  (i.id, i.organizationId, i.projectId, i.number, i.reporterId, i.createdAt)

/-- The issue is the one of its organization, project and number. -/
structure Db.AtAddress (orgSlug projectKey : JsString) (number : ℤ) (db : Db) (o : Organization)
    (p : Project) (i : Issue) : Prop where
  organization : o ∈ db.organizations
  slug : o.slug = orgSlug
  project : p ∈ db.projects
  owner : p.organizationId = o.id
  key : p.key = projectKey
  issue : i ∈ db.issues
  tenant : i.organizationId = o.id
  column : i.projectId = p.id
  number : (i.number : ℤ) = number

/-! ### What calls keep -/

/-- The unique indexes that an address goes through, and the counters above all numbers in use. -/
structure Addressed (db : Db) : Prop where
  slugs : UniqueKey Organization.slug db.organizations
  projectIds : UniqueKey Project.id db.projects
  projectKeys : UniqueKey (fun p : Project => (p.organizationId, p.key)) db.projects
  numbers : UniqueKey (fun i : Issue => (i.projectId, i.number)) db.issues
  counted : ∀ i ∈ db.issues, ∃ p ∈ db.projects, p.id = i.projectId ∧ i.number ≤ p.issueCounter

/-- A later state of the tables: an issue in it was there, or has a number its project had not given
before. -/
structure Db.Onward (db db' : Db) : Prop where
  addressed : Addressed db'
  organizations : db.organizations <+: db'.organizations
  projects : ∀ p ∈ db.projects, ∃ p' ∈ db'.projects, p'.id = p.id ∧
    p'.organizationId = p.organizationId ∧ p'.key = p.key ∧ p.issueCounter ≤ p'.issueCounter
  issues : ∀ i ∈ db'.issues, (∃ j ∈ db.issues, i.origin = j.origin) ∨
    ∀ p ∈ db.projects, p.id = i.projectId → p.issueCounter < i.number

/-- The tables that addresses are about. -/
def Db.addressing (db : Db) := (db.organizations, db.projects, db.issues)

theorem Addressed.empty : Addressed Db.empty := by
  constructor <;> simp [Db.empty, UniqueKey]

namespace Db.Onward

variable {db db' db'' : Db}

theorem refl (h : Addressed db) : db.Onward db where
  addressed := h
  organizations := List.prefix_rfl
  projects p hp := ⟨p, hp, rfl, rfl, rfl, le_rfl⟩
  issues i hi := .inl ⟨i, hi, rfl⟩

theorem congr (h : Addressed db) (heq : db'.addressing = db.addressing) : db.Onward db' := by
  simp only [Db.addressing, Prod.mk.injEq] at heq
  obtain ⟨ho, hp, hi⟩ := heq
  refine ⟨⟨?_, ?_, ?_, ?_, ?_⟩, ?_, ?_, ?_⟩ <;> simp only [ho, hp, hi]
  · exact h.slugs
  · exact h.projectIds
  · exact h.projectKeys
  · exact h.numbers
  · exact h.counted
  · exact List.prefix_rfl
  · exact (refl h).projects
  · exact (refl h).issues

theorem trans (h : db.Onward db') (h' : db'.Onward db'') : db.Onward db'' := by
  refine ⟨h'.addressed, h.organizations.trans h'.organizations, fun p hp => ?_, fun i hi => ?_⟩
  · obtain ⟨p', hp', hid, horg, hkey, hle⟩ := h.projects p hp
    obtain ⟨p'', hp'', hid', horg', hkey', hle'⟩ := h'.projects p' hp'
    exact ⟨p'', hp'', hid'.trans hid, horg'.trans horg, hkey'.trans hkey, hle.trans hle'⟩
  · rcases h'.issues i hi with ⟨j, hj, hij⟩ | hnew
    · simp only [Issue.origin, Prod.mk.injEq] at hij
      obtain ⟨-, -, hproject, hnumber, -⟩ := id hij
      rcases h.issues j hj with ⟨k, hk, hjk⟩ | hnew
      · simp only [Issue.origin, Prod.mk.injEq] at hjk
        refine .inl ⟨k, hk, ?_⟩
        simp only [Issue.origin, hij, hjk]
      · right
        rw [hproject, hnumber]
        exact hnew
    · right
      intro p hp hid
      obtain ⟨p', hp', hid', -, -, hle⟩ := h.projects p hp
      exact hle.trans_lt (hnew p' hp' (hid'.trans hid))

/-! ### Each kind of write -/

theorem createUser (h : Addressed db) {row u : User} (hc : db.createUser row = .ok (u, db')) :
    db.Onward db' := by
  obtain ⟨-, rfl, -⟩ := Db.createUser_ok hc
  exact congr h rfl

theorem createOrganization (h : Addressed db) {userId name slug : JsString} {g : Gen}
    {org : Organization}
    (hc : db.createOrganization (newOrganization userId name slug g) = .ok (org, db')) :
    db.Onward db' := by
  obtain ⟨_, rfl, hfresh, _⟩ := Db.createOrganization_ok hc
  refine ⟨{ h with slugs := h.slugs.insert fun o ho => (hfresh o ho).2 }, List.prefix_append ..,
    (refl h).projects, (refl h).issues⟩

theorem createProject (h : Addressed db) {row p : Project}
    (hc : db.createProject row = .ok (p, db')) : db.Onward db' := by
  have hkeys : ∀ q ∈ db.projects, (q.organizationId, q.key) ≠ (row.organizationId, row.key) := by
    intro q hq heq
    obtain ⟨horg, hkey⟩ := Prod.mk.inj heq
    unfold Db.createProject at hc
    rw [if_pos (List.any_eq_true.2 ⟨q, hq, by simp [horg, hkey]⟩)] at hc
    cases hc
  obtain ⟨-, rfl, hfresh⟩ := Db.createProject_ok hc
  refine ⟨⟨h.slugs, h.projectIds.insert hfresh, h.projectKeys.insert hkeys, h.numbers,
    fun i hi => ?_⟩, List.prefix_rfl, fun p hp => ?_, (refl h).issues⟩
  · obtain ⟨p, hp, hcounted⟩ := h.counted i hi
    exact ⟨p, List.mem_append_left _ hp, hcounted⟩
  · exact ⟨p, List.mem_append_left _ hp, rfl, rfl, rfl, le_rfl⟩

/-- A counter only goes up. -/
theorem bumpProject (h : Addressed db) (projectId : JsString) (now : Date) :
    db.Onward (db.bumpProject projectId now) := by
  have hkept : ∀ p ∈ db.projects, ∃ p' ∈ (db.bumpProject projectId now).projects, p'.id = p.id ∧
      p'.organizationId = p.organizationId ∧ p'.key = p.key ∧
      p.issueCounter ≤ p'.issueCounter := by
    intro p hp
    refine ⟨_, mem_updateWhere.2 ⟨p, hp, rfl⟩, ?_⟩
    split
    · exact ⟨rfl, rfl, rfl, Nat.le_succ _⟩
    · exact ⟨rfl, rfl, rfl, le_rfl⟩
  refine ⟨⟨h.slugs, h.projectIds.update fun _ _ _ => rfl, h.projectKeys.update fun _ _ _ => rfl,
    h.numbers, fun i hi => ?_⟩, List.prefix_rfl, hkept, (refl h).issues⟩
  obtain ⟨p, hp, hid, hle⟩ := h.counted i hi
  obtain ⟨p', hp', hid', -, -, hle'⟩ := hkept p hp
  exact ⟨p', hp', hid'.trans hid, hle.trans hle'⟩

/-- **A new issue** has the next number of its project. -/
theorem createIssueTx (h : Addressed db) {organizationId actorId projectId : JsString}
    {input : CreateIssueInput} {g : Gen} {issue : IssueView}
    (htx : db.createIssueTx organizationId actorId projectId input g = .ok (issue, db')) :
    db.Onward db' := by
  obtain ⟨project, rank, hfind, -, hins⟩ := Db.createIssueTx_ok htx
  obtain ⟨-, rfl, -⟩ := Db.createIssue_ok hins
  obtain ⟨hproject, hid⟩ := h.projectIds.find?_iff.1 hfind
  have hbump := bumpProject h projectId g.now
  have hself : { project.bump g.now with id := projectId } ∈
      (db.bumpProject projectId g.now).projects := by
    refine mem_updateWhere.2 ⟨project, hproject, ?_⟩
    rw [if_pos (beq_iff_eq.2 hid), ← hid]
    rfl
  -- the numbers in use are at most the counter before the increment
  have hbelow : ∀ i ∈ db.issues, i.projectId = projectId → i.number ≤ project.issueCounter := by
    intro i hi hin
    obtain ⟨p, hp, hpid, hle⟩ := h.counted i hi
    rwa [h.projectIds.eq_of_key_eq hp hproject (hpid.trans (hin.trans hid.symm))] at hle
  refine ⟨{ hbump.addressed with numbers := h.numbers.insert ?_, counted := fun i hi => ?_ },
    List.prefix_rfl, hbump.projects, fun i hi => ?_⟩
  · intro i hi heq
    obtain ⟨hin, hnumber⟩ := Prod.mk.inj heq
    have hle := hbelow i hi hin
    rw [hnumber] at hle
    exact absurd hle (Nat.not_succ_le_self _)
  · rcases List.mem_append.1 hi with hi | hi
    · exact hbump.addressed.counted i hi
    · rw [List.mem_singleton.1 hi]
      exact ⟨_, hself, rfl, le_rfl⟩
  · rcases List.mem_append.1 hi with hi | hi
    · exact .inl ⟨i, hi, rfl⟩
    · rw [List.mem_singleton.1 hi]
      right
      intro p hp hpid
      rw [h.projectIds.eq_of_key_eq hp hproject (hpid.trans hid.symm)]
      exact Nat.lt_succ_self _

/-- A rewrite that leaves what an issue was created with. -/
theorem rewriteIssue (h : Addressed db) (issueId : JsString) {f : Issue → Issue}
    (hf : ∀ i, (f i).origin = i.origin) : db.Onward (db.rewriteIssue issueId f) := by
  have hold : ∀ i ∈ (db.rewriteIssue issueId f).issues, ∃ j ∈ db.issues, i.origin = j.origin := by
    intro i hi
    obtain ⟨j, hj, rfl⟩ := mem_updateWhere.1 hi
    refine ⟨j, hj, ?_⟩
    split
    · exact hf j
    · rfl
  refine ⟨{ h with numbers := h.numbers.update fun i _ _ => ?_, counted := fun i hi => ?_ },
    List.prefix_rfl, (refl h).projects, fun i hi => .inl (hold i hi)⟩
  · have hi := hf i
    simp only [Issue.origin, Prod.mk.injEq] at hi
    rw [hi.2.2.1, hi.2.2.2.1]
  · obtain ⟨j, hj, hij⟩ := hold i hi
    simp only [Issue.origin, Prod.mk.injEq] at hij
    rw [hij.2.2.1, hij.2.2.2.1]
    exact h.counted j hj

theorem dropIssue (h : Addressed db) (issueId : JsString) : db.Onward (db.dropIssue issueId) where
  addressed := { h with
    numbers := h.numbers.delete _
    counted := fun i hi => h.counted i (mem_deleteWhere.1 hi).1 }
  organizations := List.prefix_rfl
  projects := (refl h).projects
  issues i hi := .inl ⟨i, (mem_deleteWhere.1 hi).1, rfl⟩

end Db.Onward

/-! ### Calls and runs -/

theorem TenantChange.onward {organizationId actorId : JsString} {g : Gen} {w w' : World}
    {call : TenantWrite} (hw : Addressed w.db)
    (h : TenantChange organizationId actorId g w call w') : w.db.Onward w'.db := by
  cases h with
  | createIssue found committed => exact .createIssueTx hw committed
  | updateIssue found committed =>
      obtain ⟨_, -, -, rfl⟩ := Db.updateIssue_ok committed
      exact .rewriteIssue hw _ fun _ => rfl
  | moveIssue found dropped committed =>
      obtain ⟨_, -, -, rfl⟩ := Db.updateIssue_ok committed
      exact .rewriteIssue hw _ fun _ => rfl
  | removeIssue found committed =>
      rw [Db.deleteIssue_ok committed]
      exact .dropIssue hw _
  | createProject committed team => exact .createProject hw committed
  | addMember found committed =>
      rcases Db.upsertMembership_ok committed with rfl | ⟨rfl, -⟩
      · exact .congr hw rfl
      · exact .congr hw rfl
  | invite unknown committed =>
      rcases Db.upsertInvite_ok committed with rfl | rfl
      · exact .congr hw rfl
      · exact .congr hw rfl
  | updateMemberRole found notOwner => exact .congr hw rfl
  | removeMember found notOwner => exact .congr hw rfl
  | confirm found key committed =>
      obtain ⟨-, rfl, -⟩ := Db.createAttachment_ok committed
      exact .congr hw rfl
  | removeAttachment found attachment =>
      split
      · exact .congr hw rfl
      · exact .congr hw rfl
  | createCheckout committed =>
      rw [Db.setCustomer_ok committed]
      exact .congr hw rfl

theorem ApiChange.onward {env : ApiEnv} {g : Gen} {w w' : World} {call : ApiCall}
    (hw : Addressed w.db) (h : ApiChange env g w call w') : w.db.Onward w'.db := by
  cases h with
  | register committed =>
      have hinserted := Db.Onward.createUser hw committed
      exact hinserted.trans (.congr hinserted.addressed rfl)
  | registerOrg committed owned =>
      have hinserted := Db.Onward.createUser hw committed
      have howned := Db.Onward.createOrganization hinserted.addressed owned
      exact hinserted.trans (howned.trans (.congr howned.addressed rfl))
  | login => exact .congr hw rfl
  | refresh => exact .congr hw rfl
  | logout => exact .congr hw rfl
  | createOrg committed => exact .createOrganization hw committed
  | acceptInvite found pending addressee committed burnt =>
      obtain ⟨_, rfl⟩ := Db.burnInvite_ok burnt
      rcases Db.upsertMembership_ok committed with rfl | ⟨rfl, -⟩
      · exact .congr hw rfl
      · exact .congr hw rfl
  | tenant member allowed change => exact change.onward hw
  | markRead user ids => exact .congr hw rfl
  | markAllRead user => exact .congr hw rfl
  | updatePrefs committed =>
      obtain ⟨_, rfl⟩ := Db.updatePrefs_ok committed
      exact .congr hw rfl
  | webhook known customer committed =>
      rw [Db.reconcile_ok committed]
      exact .congr hw rfl
  | upload url => exact .congr hw rfl
  | work queued => exact .congr hw rfl

section Runs

variable {env : ApiEnv} {calls : List (ApiCall × Gen)} {w w' : World}

theorem Db.Onward.run (hw : Addressed w.db) (hrun : Run (ApiStep env) w calls w') :
    w.db.Onward w'.db := by
  refine hrun.invariant (P := fun w' => w.db.Onward w'.db) ?_ (.refl hw)
  rintro v ⟨call, g⟩ v' hv hstep
  rw [show v' = _ from hstep]
  rcases call.exec_cases env g v with hsame | ⟨v₁, organizationId, hchange, hafter⟩
  · rw [hsame]
    exact hv
  · obtain ⟨logs, -, hdb⟩ := hafter.db
    have hnext := hv.trans (hchange.onward hv.addressed)
    rw [hdb]
    exact hnext.trans (.congr hnext.addressed rfl)

theorem Addressed.run (hrun : Run (ApiStep env) World.empty calls w) : Addressed w.db :=
  (Db.Onward.run .empty hrun).addressed

end Runs

/-! ### Addresses -/

namespace Db.AtAddress

variable {orgSlug projectKey : JsString} {number : ℤ} {db db' db'' : Db} {o o' : Organization}
  {p p' : Project} {i i' : Issue}

/-- The number is one that the project has given. -/
theorem number_le (h : db.AtAddress orgSlug projectKey number o p i) (hdb : Addressed db) :
    i.number ≤ p.issueCounter := by
  obtain ⟨q, hq, hid, hle⟩ := hdb.counted i h.issue
  rwa [hdb.projectIds.eq_of_key_eq hq h.project (hid.trans h.column)] at hle

/-- The organization and the project of an address stay. -/
theorem onward (h : db.AtAddress orgSlug projectKey number o p i) (hdb : db.Onward db') :
    o ∈ db'.organizations ∧ ∃ p' ∈ db'.projects, p'.id = p.id ∧ p'.organizationId = o.id ∧
      p'.key = projectKey ∧ p.issueCounter ≤ p'.issueCounter := by
  obtain ⟨p', hp', hid, horg, hkey, hle⟩ := hdb.projects p h.project
  exact ⟨hdb.organizations.subset h.organization, p', hp', hid, horg.trans h.owner,
    hkey.trans h.key, hle⟩

/-- **An address that shows an issue before and after shows one.** -/
theorem origin_eq (h : db.AtAddress orgSlug projectKey number o p i) (hdb : Addressed db)
    (hlater : db.Onward db') (h' : db'.AtAddress orgSlug projectKey number o' p' i') :
    i'.origin = i.origin := by
  obtain ⟨ho, q, hq, hid, horg, hkey, -⟩ := h.onward hlater
  obtain rfl := hlater.addressed.slugs.eq_of_key_eq ho h'.organization (h.slug.trans h'.slug.symm)
  obtain rfl := hlater.addressed.projectKeys.eq_of_key_eq hq h'.project
    (Prod.ext (horg.trans h'.owner.symm) (hkey.trans h'.key.symm))
  have hcolumn : i'.projectId = i.projectId := h'.column.trans (hid.trans h.column.symm)
  have hnumber : i'.number = i.number := Nat.cast_injective (h'.number.trans h.number.symm)
  rcases hlater.issues i' h'.issue with ⟨j, hj, hij⟩ | hnew
  · rw [hij]
    simp only [Issue.origin, Prod.mk.injEq] at hij
    rw [hdb.numbers.eq_of_key_eq hj h.issue
      (Prod.ext (hij.2.2.1.symm.trans hcolumn) (hij.2.2.2.1.symm.trans hnumber))]
  · have hlt := hnew p h.project (h.column.symm.trans hcolumn.symm)
    rw [hnumber] at hlt
    exact absurd (h.number_le hdb) (Nat.not_le.2 hlt)

/-- **An address that shows an issue before and after shows one between.** -/
theorem between (h : db.AtAddress orgSlug projectKey number o p i) (hdb : Addressed db)
    (hmiddle : db.Onward db') (hlater : db'.Onward db'')
    (h' : db''.AtAddress orgSlug projectKey number o' p' i') :
    ∃ q j, db'.AtAddress orgSlug projectKey number o q j := by
  have horigin := h.origin_eq hdb (hmiddle.trans hlater) h'
  simp only [Issue.origin, Prod.mk.injEq] at horigin
  obtain ⟨-, horigin, hproject, hnumber, -⟩ := horigin
  obtain ⟨ho, q, hq, hid, horg, hkey, hle⟩ := h.onward hmiddle
  rcases hlater.issues i' h'.issue with ⟨j, hj, hij⟩ | hnew
  · simp only [Issue.origin, Prod.mk.injEq] at hij
    obtain ⟨-, hij, hjproject, hjnumber, -⟩ := hij
    exact ⟨q, j, ho, h.slug, hq, horg, hkey, hj, hij.symm.trans (horigin.trans h.tenant),
      hjproject.symm.trans (hproject.trans (h.column.trans hid.symm)),
      (congrArg Nat.cast (hjnumber.symm.trans hnumber)).trans h.number⟩
  · have hlt := hnew q hq (hid.trans (h.column.symm.trans hproject.symm))
    rw [hnumber] at hlt
    exact absurd ((h.number_le hdb).trans hle) (Nat.not_le.2 hlt)

end Db.AtAddress

section Shown

variable {ilike : JsString → JsString → Bool} {orgSlug projectKey : JsString} {number : ℤ}
  {user : AuthUser} {w : World}

/-- An issue that the route shows is at the address. -/
theorem atAddress_of_shown {d : IssueDetail}
    (h : ((TenantRead.getIssue projectKey number).serve ilike user orgSlug w).1 = .ok (.issue d)) :
    orgSlug ≠ [] ∧ ∃ o p, w.db.AtAddress orgSlug projectKey number o p d.issue := by
  rw [TenantRead.serve, tenantScoped_apply] at h
  split at h
  · cases h
  · rename_i hslug
    refine ⟨hslug, ?_⟩
    split at h
    · rename_i m hm
      obtain ⟨-, -, o, ho, hid, rfl⟩ := Db.findMembershipBySlug_some hm
      change (TenantRead.handler ilike (.getIssue projectKey number) m.organizationId w).1 = _ at h
      rw [TenantRead.handler, Service.bind_apply, IssuesService.getByNumber_apply] at h
      cases hp : w.db.findProject m.organizationId projectKey with
      | none =>
          rw [hp] at h
          cases h
      | some p =>
          obtain ⟨hproject, horg, hkey⟩ := Db.findProject_some hp
          cases hi : w.db.findIssueByNumber m.organizationId p.id number with
          | none =>
              simp only [hp, hi] at h
              cases h
          | some i =>
              simp only [hp, hi] at h
              cases h
              have hcols := List.find?_some hi
              simp only [Bool.and_eq_true, beq_iff_eq] at hcols
              exact ⟨o, p, ho, rfl, hproject, horg.trans hid.symm, hkey, List.mem_of_find?_eq_some hi,
                hcols.1.1.trans hid.symm, hcols.1.2, hcols.2⟩
    · cases h

/-- The route shows a member the issue at the address. -/
theorem shown_of_atAddress {o : Organization} {p : Project} {i : Issue} {m : Membership}
    (hdb : Addressed w.db) (hslug : orgSlug ≠ [])
    (hm : w.db.findMembershipBySlug user.sub orgSlug = some m)
    (h : w.db.AtAddress orgSlug projectKey number o p i) :
    ((TenantRead.getIssue projectKey number).serve ilike user orgSlug w).1 =
      .ok (.issue (w.db.detail i)) := by
  obtain ⟨-, -, o', ho', hid, hslug'⟩ := Db.findMembershipBySlug_some hm
  obtain rfl := hdb.slugs.eq_of_key_eq ho' h.organization (hslug'.trans h.slug.symm)
  have hproject : w.db.findProject m.organizationId projectKey = some p := by
    refine hdb.projectKeys.find?_eq h.project ?_ fun q _ hq => ?_
    · simp only [Bool.and_eq_true, beq_iff_eq]
      exact ⟨h.owner.trans hid, h.key⟩
    · simp only [Bool.and_eq_true, beq_iff_eq] at hq
      exact Prod.ext (hq.1.trans (h.owner.trans hid).symm) (hq.2.trans h.key.symm)
  have hissue : w.db.findIssueByNumber m.organizationId p.id number = some i := by
    refine hdb.numbers.find?_eq h.issue ?_ fun j _ hj => ?_
    · simp only [Bool.and_eq_true, beq_iff_eq]
      exact ⟨⟨h.tenant.trans hid, h.column⟩, h.number⟩
    · simp only [Bool.and_eq_true, beq_iff_eq] at hj
      exact Prod.ext (hj.1.2.trans h.column.symm)
        (Nat.cast_injective (hj.2.trans h.number.symm))
  have hanswer : ((TenantRead.getIssue projectKey number).handler ilike m.organizationId w).1 =
      .ok (.issue (w.db.detail i)) := by
    rw [TenantRead.handler, Service.bind_apply, IssuesService.getByNumber_apply, hproject]
    simp only [hissue, Service.pure_apply]
  rw [TenantRead.serve, tenantScoped_apply, if_neg hslug, hm]
  exact hanswer

end Shown

/-- **A link to an issue goes on meaning that issue.**  If the address shows an issue at one time and
an issue at a later one, it is the same issue, of the same project, number, reporter and time of
creation, and at every time between the address shows it to every member. -/
theorem address_permanent {env : ApiEnv} {ilike : JsString → JsString → Bool}
    {calls next later : List (ApiCall × Gen)} {w w' w'' : World} {user user'' : AuthUser}
    {orgSlug projectKey : JsString} {number : ℤ} {d d'' : IssueDetail}
    (hrun : Run (ApiStep env) World.empty calls w) (hnext : Run (ApiStep env) w next w')
    (hlater : Run (ApiStep env) w' later w'')
    (hshown : ((TenantRead.getIssue projectKey number).serve ilike user orgSlug w).1 =
      .ok (.issue d))
    (hshown'' : ((TenantRead.getIssue projectKey number).serve ilike user'' orgSlug w'').1 =
      .ok (.issue d'')) :
    d''.issue.origin = d.issue.origin ∧
    ∀ user' m, w'.db.findMembershipBySlug user'.sub orgSlug = some m →
      ∃ d', ((TenantRead.getIssue projectKey number).serve ilike user' orgSlug w').1 =
        .ok (.issue d') ∧ d'.issue.origin = d.issue.origin := by
  have haddressed : Addressed w.db := .run hrun
  have hmiddle : w.db.Onward w'.db := .run haddressed hnext
  have hend : w'.db.Onward w''.db := .run hmiddle.addressed hlater
  obtain ⟨hslug, o, p, hat⟩ := atAddress_of_shown hshown
  obtain ⟨-, o'', p'', hat''⟩ := atAddress_of_shown hshown''
  refine ⟨hat.origin_eq haddressed (hmiddle.trans hend) hat'', fun user' m hm => ?_⟩
  obtain ⟨q, j, hat'⟩ := hat.between haddressed hmiddle hend hat''
  exact ⟨_, shown_of_atAddress hmiddle.addressed hslug hm hat',
    hat.origin_eq haddressed hmiddle hat'⟩

/-! ### The second of Ann's issues -/

namespace Permalinks.Samples

open AuditReplay.Samples (ann bob route calls)
open TokenService.Samples (draw)
open TwoTenants (env labelId)

def made : World := ApiCall.serveAll env World.empty (calls.take 7)

/-- The first issue is removed. -/
def removed : World := ApiCall.serveAll env made (calls.drop 7)

def another : List (ApiCall × Gen) :=
  [(route (.createIssue (js "PM") { title := js "Profile" }), draw labelId (js "t8"))]

def later : World := ApiCall.serveAll env removed another

def shown (user : AuthUser) (w : World) : Except Exn Answer :=
  ((TenantRead.getIssue (js "PM") 2).serve (fun _ _ => false) user (js "demo") w).1

end Permalinks.Samples

open Permalinks.Samples AuditReplay.Samples in
theorem address_permanent_demo :
    ∃ d d' d'', shown ann made = .ok (.issue d) ∧ shown bob removed = .ok (.issue d') ∧
      shown ann later = .ok (.issue d'') ∧ d'.issue.origin = d.issue.origin ∧
      d''.issue.origin = d.issue.origin := by
  have hmade : ∃ d, shown ann made = .ok (.issue d) := ⟨_, rfl⟩
  have hlater : ∃ d, shown ann later = .ok (.issue d) := ⟨_, rfl⟩
  have hbob : ∃ m, removed.db.findMembershipBySlug bob.sub (js "demo") = some m := ⟨_, rfl⟩
  obtain ⟨d, hd⟩ := hmade
  obtain ⟨d'', hd''⟩ := hlater
  obtain ⟨m, hm⟩ := hbob
  obtain ⟨horigin, hbetween⟩ := address_permanent (ApiCall.serveAll_run ..)
    (ApiCall.serveAll_run ..) (ApiCall.serveAll_run TwoTenants.env removed another) hd hd''
  obtain ⟨d', hd', horigin'⟩ := hbetween bob m hm
  exact ⟨d, d', d'', hd, hd', hd'', horigin', horigin⟩

end PmSaas
