import PmSaas.Db.Seed

/-!
# Seeding a database again

The seed upserts the issues 1 to 7 of `PM` and then writes 7 to its `issueCounter`, whatever the
counter was.  Issues created in between keep their numbers.

* `KeepsSeed`: no call of the API loses what the seed looks up, so it can always be run again;
* `reseed_iff`: after it the counter is at least every number, and `create` finds the next number
  free, exactly when no issue of the project had a number above 7.
-/

namespace PmSaas

open Table TransitionSystem

/-! ### What stays -/

/-- Nothing that the seed looks up is lost. -/
structure KeepsSeed (db db' : Db) : Prop where
  users : ∀ u ∈ db.users, ∃ u' ∈ db'.users, u'.email = u.email
  organizations : db.organizations <+: db'.organizations
  projects : ∀ p ∈ db.projects, ∃ p' ∈ db'.projects,
    p'.organizationId = p.organizationId ∧ p'.key = p.key

namespace KeepsSeed

variable {db db' db'' : Db}

theorem refl (db : Db) : KeepsSeed db db :=
  ⟨fun u hu => ⟨u, hu, rfl⟩, List.prefix_rfl, fun p hp => ⟨p, hp, rfl, rfl⟩⟩

theorem trans (h : KeepsSeed db db') (h' : KeepsSeed db' db'') : KeepsSeed db db'' := by
  refine ⟨fun u hu => ?_, h.organizations.trans h'.organizations, fun p hp => ?_⟩
  · obtain ⟨u', hu', hemail⟩ := h.users u hu
    obtain ⟨u'', hu'', hemail'⟩ := h'.users u' hu'
    exact ⟨u'', hu'', hemail'.trans hemail⟩
  · obtain ⟨p', hp', horg, hkey⟩ := h.projects p hp
    obtain ⟨p'', hp'', horg', hkey'⟩ := h'.projects p' hp'
    exact ⟨p'', hp'', horg'.trans horg, hkey'.trans hkey⟩

/-- Rows are added to the three tables. -/
theorem of_appended (hu : db.users <+: db'.users) (ho : db.organizations <+: db'.organizations)
    (hp : db.projects <+: db'.projects) : KeepsSeed db db' :=
  ⟨fun u h => ⟨u, hu.subset h, rfl⟩, ho, fun p h => ⟨p, hp.subset h, rfl, rfl⟩⟩

/-- The three tables stay. -/
theorem of_eq (hu : db'.users = db.users) (ho : db'.organizations = db.organizations)
    (hp : db'.projects = db.projects) : KeepsSeed db db' :=
  of_appended (hu ▸ List.prefix_rfl) (ho ▸ List.prefix_rfl) (hp ▸ List.prefix_rfl)

/-- An update of the projects that keeps their organizations and keys. -/
theorem updateProjects {q : Project → Bool} {f : Project → Project}
    (hf : ∀ p, (f p).organizationId = p.organizationId ∧ (f p).key = p.key)
    (hu : db'.users = db.users) (ho : db'.organizations = db.organizations)
    (hp : db'.projects = updateWhere q f db.projects) : KeepsSeed db db' := by
  refine ⟨fun u h => ⟨u, hu ▸ h, rfl⟩, ho ▸ List.prefix_rfl, fun p h => ?_⟩
  refine ⟨_, hp ▸ mem_updateWhere.2 ⟨p, h, rfl⟩, ?_⟩
  split
  · exact hf p
  · exact ⟨rfl, rfl⟩

theorem updatePrefs {userId : JsString} {prefs : NotificationPrefsInput} {now : Date} {u : User}
    (h : db.updatePrefs userId prefs now = .ok (u, db')) : KeepsSeed db db' := by
  unfold Db.updatePrefs at h
  split at h
  · cases h
  · cases h
    refine ⟨fun v hv => ?_, List.prefix_rfl, fun p hp => ⟨p, hp, rfl, rfl⟩⟩
    refine ⟨_, mem_updateWhere.2 ⟨v, hv, rfl⟩, ?_⟩
    split
    · rfl
    · rfl

theorem createUser {row u : User} (h : db.createUser row = .ok (u, db')) : KeepsSeed db db' := by
  obtain ⟨-, rfl, -⟩ := Db.createUser_ok h
  exact of_appended (List.prefix_append ..) List.prefix_rfl List.prefix_rfl

theorem createOrganization {new : NewOrganization} {org : Organization}
    (h : db.createOrganization new = .ok (org, db')) : KeepsSeed db db' := by
  obtain ⟨-, rfl, -⟩ := Db.createOrganization_ok h
  exact of_appended List.prefix_rfl (List.prefix_append ..) List.prefix_rfl

theorem upsertMembership {userId organizationId : JsString} {role : Role} {id : Cuid} {now : Date}
    {m : Membership} (h : db.upsertMembership userId organizationId role id now = .ok (m, db')) :
    KeepsSeed db db' := by
  rcases Db.upsertMembership_ok h with rfl | ⟨rfl, -⟩
  · exact of_eq rfl rfl rfl
  · exact of_eq rfl rfl rfl

end KeepsSeed

theorem TenantChange.keepsSeed {organizationId actorId : JsString} {g : Gen} {w w' : World}
    {call : TenantWrite} (h : TenantChange organizationId actorId g w call w') :
    KeepsSeed w.db w'.db := by
  obtain ⟨husers, horganizations, hprojects | ⟨id, hprojects⟩, -⟩ := h.tables
  · exact .of_appended (husers ▸ List.prefix_rfl) (horganizations ▸ List.prefix_rfl) hprojects
  · exact .updateProjects (f := Project.bump g.now) (fun _ => ⟨rfl, rfl⟩) husers horganizations
      hprojects

theorem ApiChange.keepsSeed {env : ApiEnv} {g : Gen} {w w' : World} {call : ApiCall}
    (h : ApiChange env g w call w') : KeepsSeed w.db w'.db := by
  cases h with
  | register committed => exact (KeepsSeed.createUser committed).trans (.of_eq rfl rfl rfl)
  | registerOrg committed owned =>
      exact ((KeepsSeed.createUser committed).trans (.createOrganization owned)).trans
        (.of_eq rfl rfl rfl)
  | login => exact .of_eq rfl rfl rfl
  | refresh => exact .of_eq rfl rfl rfl
  | logout => exact .of_eq rfl rfl rfl
  | createOrg committed => exact .createOrganization committed
  | acceptInvite found pending addressee committed burnt =>
      obtain ⟨invites, rfl⟩ := Db.burnInvite_ok burnt
      exact (KeepsSeed.upsertMembership committed).trans (.of_eq rfl rfl rfl)
  | tenant member allowed change => exact change.keepsSeed
  | markRead user ids => exact .of_eq rfl rfl rfl
  | markAllRead user => exact .of_eq rfl rfl rfl
  | updatePrefs committed => exact .updatePrefs committed
  | webhook known customer committed =>
      rw [Db.reconcile_ok committed]
      exact .of_eq rfl rfl rfl
  | upload url => exact .of_eq rfl rfl rfl
  | work queued => exact .of_eq rfl rfl rfl

theorem ApiCall.keepsSeed (env : ApiEnv) (g : Gen) (call : ApiCall) (w : World) :
    KeepsSeed w.db (call.exec env g w).db := by
  rcases call.exec_cases env g w with hsame | ⟨w', organizationId, hchange, hafter⟩
  · rw [hsame]
    exact .refl w.db
  · obtain ⟨logs, -, hdb⟩ := hafter.db
    rw [hdb]
    exact hchange.keepsSeed.trans (.of_eq rfl rfl rfl)

theorem keepsSeed_of_run {env : ApiEnv} {w₀ w : World} {calls : List (ApiCall × Gen)}
    (hrun : Run (ApiStep env) w₀ calls w) : KeepsSeed w₀.db w.db := by
  refine hrun.invariant (P := fun w => KeepsSeed w₀.db w.db) ?_ (.refl w₀.db)
  intro w call w' h hstep
  rw [show w' = _ from hstep]
  exact h.trans (call.1.keepsSeed env call.2 w)

/-! ### What the seed finds -/

/-- What the seed looks up is there. -/
structure Seeded (db : Db) : Prop where
  users : ∀ email ∈ [Seed.ownerEmail, Seed.aliceEmail, Seed.bobEmail],
    ∃ u ∈ db.users, u.email = email
  project : ∃ p, db.demoProject = some p

theorem Db.demoProject_eq {db : Db} {p : Project} (h : db.demoProject = some p) :
    ∃ org, db.findOrganization (js "acme") = some org ∧
      db.findProject org.id (js "PM") = some p :=
  Option.bind_eq_some_iff.1 h

theorem Seeded.keeps {db db' : Db} (h : Seeded db) (hkeeps : KeepsSeed db db') : Seeded db' := by
  refine ⟨fun email hemail => ?_, ?_⟩
  · obtain ⟨u, hu, rfl⟩ := h.users email hemail
    exact hkeeps.users u hu
  · obtain ⟨p, hp⟩ := h.project
    obtain ⟨org, horg, hproject⟩ := Db.demoProject_eq hp
    obtain ⟨later, hlater⟩ := hkeeps.organizations
    have horg' : db'.findOrganization (js "acme") = some org := by
      rw [Db.findOrganization, ← hlater, List.find?_append]
      rw [Db.findOrganization] at horg
      rw [horg]
      rfl
    obtain ⟨hmem, hid, hkey⟩ := Db.findProject_some hproject
    obtain ⟨p', hp', hid', hkey'⟩ := hkeeps.projects p hmem
    have hfound : (db'.findProject org.id (js "PM")).isSome := by
      rw [Db.findProject, List.find?_isSome]
      exact ⟨p', hp', by simp [hid', hkey', hid, hkey]⟩
    rw [Db.demoProject, horg']
    exact Option.isSome_iff_exists.1 hfound

/-! ### What the seed leaves -/

section Calls

variable {db db' : Db}

theorem Db.upsertUser_ok {row u : User} (h : db.upsertUser row = .ok (u, db')) :
    (∃ u ∈ db'.users, u.email = row.email) ∧ KeepsSeed db db' := by
  unfold Db.upsertUser at h
  split at h
  · rename_i v hfound
    cases h
    have hemail := List.find?_some hfound
    exact ⟨⟨u, List.mem_of_find?_eq_some hfound, by simpa using hemail⟩, .refl db⟩
  · have hkeeps := KeepsSeed.createUser h
    obtain ⟨-, rfl, -⟩ := Db.createUser_ok h
    exact ⟨⟨row, List.mem_append_right _ (List.mem_singleton_self row), rfl⟩, hkeeps⟩

theorem Db.upsertOrganization_ok {new : SeedOrganization} {org : Organization}
    (h : db.upsertOrganization new = .ok (org, db')) :
    db'.findOrganization new.organization.slug = some org ∧ KeepsSeed db db' := by
  unfold Db.upsertOrganization at h
  split at h
  · rename_i found hfound
    cases h
    exact ⟨hfound, .refl db⟩
  · rename_i hnone
    split at h
    · cases h
    · split at h
      · cases h
      · cases h
        refine ⟨?_, .of_appended List.prefix_rfl (List.prefix_append ..) List.prefix_rfl⟩
        rw [Db.findOrganization] at hnone
        rw [Db.findOrganization, Db.insertSeedOrganization, List.find?_append, hnone]
        simp

theorem Db.upsertProject_ok {row p : Project} (h : db.upsertProject row = .ok (p, db')) :
    (∃ p, db'.findProject row.organizationId row.key = some p) ∧
      db'.organizations = db.organizations ∧ KeepsSeed db db' := by
  unfold Db.upsertProject at h
  split at h
  · rename_i found hfound
    cases h
    exact ⟨⟨p, hfound⟩, rfl, .refl db⟩
  · obtain ⟨-, rfl, -⟩ := Db.createProject_ok h
    refine ⟨Option.isSome_iff_exists.1 ?_, rfl,
      .of_appended List.prefix_rfl List.prefix_rfl (List.prefix_append ..)⟩
    rw [Db.findProject, List.find?_isSome]
    exact ⟨row, List.mem_append_right _ (List.mem_singleton_self row), by simp⟩

theorem Db.upsertIssue_keeps {row : Issue} (h : db.upsertIssue row = .ok ((), db')) :
    KeepsSeed db db' := by
  unfold Db.upsertIssue at h
  split at h
  · cases h
    exact .refl db
  · cases hc : db.createIssue row [] with
    | error e =>
        rw [hc] at h
        cases h
    | ok r =>
        rw [hc] at h
        cases h
        obtain ⟨issue, db₁⟩ := r
        obtain ⟨-, rfl, -⟩ := Db.createIssue_ok hc
        exact .of_eq rfl rfl rfl

theorem Db.setIssueCounter_keeps {projectId : JsString} {issueCounter : ℕ} {now : Date}
    (h : db.setIssueCounter projectId issueCounter now = .ok ((), db')) : KeepsSeed db db' := by
  unfold Db.setIssueCounter at h
  split at h
  · cases h
    exact .updateProjects (f := Project.setIssueCounter issueCounter now) (fun _ => ⟨rfl, rfl⟩)
      rfl rfl rfl
  · cases h

end Calls

namespace Seed

variable {g : Gen} {w w' : World} {org : Organization} {project : Project} {owner : User}

theorem upsertIssues_keeps {i : ℕ} {perStatusIndex : IssueStatus → ℕ} {l : List SeedIssue}
    (h : upsertIssues org project owner g i perStatusIndex l w = (.ok (), w')) :
    KeepsSeed w.db w'.db := by
  induction l generalizing i perStatusIndex w with
  | nil =>
      cases h
      exact .refl _
  | cons s rest ih =>
      obtain ⟨_, db, hupsert, hrest⟩ := Service.exec_bind_ok h
      exact (Db.upsertIssue_keeps hupsert).trans (ih hrest)

/-- After the seed has run, all it looks up is there. -/
theorem seeded_of_main (h : main g w = (.ok (), w')) : Seeded w'.db := by
  obtain ⟨owner, db₁, howner, h⟩ := Service.exec_bind_ok h
  obtain ⟨alice, db₂, halice, h⟩ := Service.exec_bind_ok h
  obtain ⟨bob, db₃, hbob, h⟩ := Service.exec_bind_ok h
  obtain ⟨org, db₄, horg, h⟩ := Service.exec_bind_ok h
  rw [Service.query_bind] at h
  obtain ⟨project, db₅, hproject, h⟩ := Service.exec_bind_ok h
  obtain ⟨_, w₆, hissues, h⟩ := Service.bind_ok h
  obtain ⟨howner, h₁⟩ := Db.upsertUser_ok howner
  obtain ⟨halice, h₂⟩ := Db.upsertUser_ok halice
  obtain ⟨hbob, h₃⟩ := Db.upsertUser_ok hbob
  obtain ⟨horg, h₄⟩ := Db.upsertOrganization_ok horg
  obtain ⟨⟨p, hp⟩, horganizations, h₅⟩ := Db.upsertProject_ok hproject
  have h₆ : KeepsSeed db₅ w₆.db := upsertIssues_keeps hissues
  have h₇ : KeepsSeed w₆.db w'.db := by
    rw [Service.exec] at h
    cases hset : w₆.db.setIssueCounter project.id (seedIssues owner alice bob).length g.now with
    | error e =>
        rw [hset] at h
        cases h
    | ok r =>
        rw [hset] at h
        cases h
        exact Db.setIssueCounter_keeps hset
  have hseeded : Seeded db₅ := by
    refine ⟨fun email hemail => ?_, p, ?_⟩
    · simp only [List.mem_cons, List.not_mem_nil, or_false] at hemail
      obtain rfl | rfl | rfl := hemail
      · obtain ⟨u, hu, hemail⟩ := howner
        obtain ⟨u', hu', hemail'⟩ := (h₂.trans (h₃.trans (h₄.trans h₅))).users u hu
        exact ⟨u', hu', hemail'.trans hemail⟩
      · obtain ⟨u, hu, hemail⟩ := halice
        obtain ⟨u', hu', hemail'⟩ := (h₃.trans (h₄.trans h₅)).users u hu
        exact ⟨u', hu', hemail'.trans hemail⟩
      · obtain ⟨u, hu, hemail⟩ := hbob
        obtain ⟨u', hu', hemail'⟩ := (h₄.trans h₅).users u hu
        exact ⟨u', hu', hemail'.trans hemail⟩
    · rw [Db.demoProject, Db.findOrganization, horganizations]
      exact Option.bind_eq_some_iff.2 ⟨org, horg, hp⟩
  exact hseeded.keeps (h₆.trans h₇)

end Seed

/-! ### Seeding a seeded database -/

/-- The ids of new issues are new. -/
structure Gen.FreshIssues (g : Gen) (db : Db) : Prop where
  distinct : Function.Injective g.cuid
  issues : ∀ k, ∀ i ∈ db.issues, i.id ≠ (g.cuid k).val

section Calls

variable {db : Db}

theorem Db.upsertUser_of_mem {row : User} (h : ∃ u ∈ db.users, u.email = row.email) :
    ∃ u ∈ db.users, db.upsertUser row = .ok (u, db) := by
  obtain ⟨u, hu, hemail⟩ := h
  cases hfound : db.findUserByEmail row.email with
  | none =>
      have hnone := List.find?_eq_none.1 hfound u hu
      exact absurd hemail (by simpa using hnone)
  | some v =>
      refine ⟨v, List.mem_of_find?_eq_some hfound, ?_⟩
      rw [Db.upsertUser, hfound]

theorem Db.upsertOrganization_of_find {new : SeedOrganization} {org : Organization}
    (h : db.findOrganization new.organization.slug = some org) :
    db.upsertOrganization new = .ok (org, db) := by
  rw [Db.upsertOrganization, h]

theorem Db.upsertProject_of_find {row p : Project}
    (h : db.findProject row.organizationId row.key = some p) :
    db.upsertProject row = .ok (p, db) := by
  rw [Db.upsertProject, h]

/-- An issue with the number is there, or the row is inserted. -/
theorem Db.upsertIssue_of {row : Issue} (hid : ∀ i ∈ db.issues, i.id ≠ row.id)
    (horg : ∃ o ∈ db.organizations, o.id = row.organizationId)
    (hproject : ∃ p ∈ db.projects, p.id = row.projectId)
    (hreporter : ∃ u ∈ db.users, u.id = row.reporterId)
    (hassignee : ∀ a ∈ row.assigneeId, ∃ u ∈ db.users, u.id = a) :
    ∃ rows, (∀ i ∈ rows, i = row) ∧
      db.upsertIssue row = .ok ((), { db with issues := db.issues ++ rows }) := by
  unfold Db.upsertIssue
  split
  · exact ⟨[], List.forall_mem_nil _, by rw [List.append_nil]⟩
  · rename_i hnumber
    refine ⟨[row], fun i hi => List.mem_singleton.1 hi, ?_⟩
    have hunique : ¬(db.issues.any (·.id == row.id) ||
        db.issues.any (fun i => i.projectId == row.projectId && i.number == row.number) ||
        !decide ([] : List JsString).Nodup) = true := by
      simpa using ⟨hid, by simpa using hnumber⟩
    have hkeys : ¬(!db.organizations.any (·.id == row.organizationId) ||
        !db.projects.any (·.id == row.projectId) ||
        !db.users.any (·.id == row.reporterId) ||
        row.assigneeId.any (fun a => !db.users.any (·.id == a)) ||
        ([] : List JsString).any (fun l => !db.labels.any (·.id == l))) = true := by
      have horg' : db.organizations.any (·.id == row.organizationId) = true := by simpa using horg
      have hproject' : db.projects.any (·.id == row.projectId) = true := by simpa using hproject
      have hreporter' : db.users.any (·.id == row.reporterId) = true := by simpa using hreporter
      have hassignee' : row.assigneeId.any (fun a => !db.users.any (·.id == a)) = false := by
        cases hrow : row.assigneeId with
        | none => rfl
        | some a => simpa using hassignee a hrow
      rw [horg', hproject', hreporter', hassignee']
      simp
    rw [Db.createIssue, if_neg hunique, if_neg hkeys]
    simp [Except.map, Db.insertIssue]

end Calls

namespace Seed

variable {g : Gen} {w : World} {org : Organization} {project : Project} {owner : User}

/-- The loop inserts issues with the numbers it goes through. -/
theorem upsertIssues_seeded {i : ℕ} {perStatusIndex : IssueStatus → ℕ} {l : List SeedIssue}
    (horg : org ∈ w.db.organizations) (hproject : project ∈ w.db.projects)
    (howner : owner ∈ w.db.users)
    (hassignees : ∀ s ∈ l, ∀ a ∈ s.assigneeId, ∃ u ∈ w.db.users, u.id = a)
    (hdistinct : Function.Injective g.cuid)
    (hfresh : ∀ k, i ≤ k → ∀ j ∈ w.db.issues, j.id ≠ (g.cuid k).val) :
    ∃ rows, (∀ row ∈ rows, row.number ≤ i + l.length) ∧
      upsertIssues org project owner g i perStatusIndex l w =
        (.ok (), { w with db := { w.db with issues := w.db.issues ++ rows } }) := by
  induction l generalizing i perStatusIndex w with
  | nil => exact ⟨[], List.forall_mem_nil _, by simp [upsertIssues]⟩
  | cons s rest ih =>
      have hinserted : ∃ rows,
          (∀ j ∈ rows, j = newIssue org project owner s i (perStatusIndex s.status + 1) g) ∧
            w.db.upsertIssue (newIssue org project owner s i (perStatusIndex s.status + 1) g) =
              .ok ((), { w.db with issues := w.db.issues ++ rows }) :=
        Db.upsertIssue_of (hfresh i le_rfl) ⟨org, horg, rfl⟩ ⟨project, hproject, rfl⟩
          ⟨owner, howner, rfl⟩ (hassignees s List.mem_cons_self)
      obtain ⟨rows, hrows, hupsert⟩ := hinserted
      have hlaterFresh : ∀ k, i + 1 ≤ k → ∀ j ∈ w.db.issues ++ rows, j.id ≠ (g.cuid k).val := by
        intro k hk j hj hid
        obtain hj | hj := List.mem_append.1 hj
        · exact hfresh k (by omega) j hj hid
        · rw [hrows j hj] at hid
          have hsame : g.cuid i = g.cuid k := Cuid.val_injective hid
          have hik := hdistinct hsame
          omega
      obtain ⟨later, hlater, hrest⟩ := @ih
        { w with db := { w.db with issues := w.db.issues ++ rows } } (i + 1)
        (Function.update perStatusIndex s.status (perStatusIndex s.status + 1))
        horg hproject howner (fun s hs => hassignees s (List.mem_cons_of_mem _ hs)) hlaterFresh
      refine ⟨rows ++ later, fun row hrow => ?_, ?_⟩
      · rw [List.length_cons]
        obtain hrow | hrow := List.mem_append.1 hrow
        · rw [hrows row hrow]
          exact Nat.add_le_add_left (Nat.succ_le_succ (Nat.zero_le _)) i
        · have hle := hlater row hrow
          omega
      · rw [upsertIssues, Service.exec_bind, hupsert]
        simp only [hrest, List.append_assoc]

/-- The issues are assigned to the three users. -/
theorem seedIssues_assignees {users : List User} {owner alice bob : User} (howner : owner ∈ users)
    (halice : alice ∈ users) (hbob : bob ∈ users) :
    ∀ s ∈ seedIssues owner alice bob, ∀ a ∈ s.assigneeId, ∃ u ∈ users, u.id = a := by
  have hof : ∀ u ∈ users, ∀ a ∈ some u.id, ∃ v ∈ users, v.id = a := by
    intro u hu a ha
    exact ⟨u, hu, Option.mem_some_iff.1 ha⟩
  simp only [seedIssues, List.forall_mem_cons]
  exact ⟨hof alice halice, hof alice halice, hof bob hbob, hof bob hbob, nofun, nofun,
    hof owner howner, nofun⟩

/-- **The seed, where all it looks up is there**: issues with the numbers 1 to 7 are added, and the
counter is 7. -/
theorem main_seeded (hseeded : Seeded w.db) (hfresh : g.FreshIssues w.db) {p : Project}
    (hp : w.db.demoProject = some p) :
    ∃ rows, (∀ row ∈ rows, row.number ≤ 7) ∧
      main g w = (.ok (), { w with db := { w.db with
        issues := w.db.issues ++ rows
        projects := updateWhere (·.id == p.id) (Project.setIssueCounter 7 g.now) w.db.projects } })
    := by
  have husers : ∀ email ∈ [ownerEmail, aliceEmail, bobEmail], ∀ name id,
      ∃ u ∈ w.db.users, w.db.upsertUser (newUser email name id g.now) = .ok (u, w.db) :=
    fun email hemail name id => Db.upsertUser_of_mem (hseeded.users email hemail)
  obtain ⟨owner, howner, h₁⟩ := husers ownerEmail (by simp) (js "Olivia Owner") (g.cuid 0)
  obtain ⟨alice, halice, h₂⟩ := husers aliceEmail (by simp) (js "Alice Admin") (g.cuid 1)
  obtain ⟨bob, hbob, h₃⟩ := husers bobEmail (by simp) (js "Bob Member") (g.cuid 2)
  obtain ⟨org, horg, hproject⟩ := Db.demoProject_eq hp
  have h₄ : w.db.upsertOrganization (newOrganization owner alice bob (g.skip 3)) =
      .ok (org, w.db) := Db.upsertOrganization_of_find horg
  have h₅ : w.db.upsertProject (newProject org.id (w.db.firstTeam org.id) (g.skip 9)) =
      .ok (p, w.db) := Db.upsertProject_of_find hproject
  have hmem := (Db.findProject_some hproject).1
  have hdistinct : Function.Injective (g.skip 10).cuid := by
    intro j k hjk
    exact Nat.add_left_cancel (hfresh.distinct hjk)
  have hloop : ∃ rows, (∀ row ∈ rows, row.number ≤ 0 + (seedIssues owner alice bob).length) ∧
      upsertIssues org p owner (g.skip 10) 0 (fun _ => 0) (seedIssues owner alice bob) w =
        (.ok (), { w with db := { w.db with issues := w.db.issues ++ rows } }) :=
    upsertIssues_seeded (List.mem_of_find?_eq_some horg) hmem howner
      (seedIssues_assignees howner halice hbob) hdistinct
      fun k _ => hfresh.issues (10 + k)
  obtain ⟨rows, hrows, hissues⟩ := hloop
  have hcounter : w.db.projects.any (·.id == p.id) = true :=
    List.any_eq_true.2 ⟨p, hmem, beq_self_eq_true p.id⟩
  refine ⟨rows, by simpa [seedIssues_length] using hrows, ?_⟩
  rw [main, Service.exec_bind_same h₁, Service.exec_bind_same h₂, Service.exec_bind_same h₃,
    Service.exec_bind_same h₄, Service.query_bind, Service.exec_bind_same h₅, Service.bind_apply,
    hissues]
  dsimp only
  rw [Service.exec, Db.setIssueCounter, if_pos hcounter]
  rfl

end Seed

/-! ### The counter and the numbers -/

theorem appendRank_ne {last : Option Issue} {code : PrismaError} :
    appendRank last ≠ .error (.prisma code) := by
  intro h
  cases last with
  | none => cases h
  | some last =>
      rw [appendRank] at h
      cases hrank : rankBetween (some last.rank) none with
      | error e =>
          rw [hrank] at h
          cases e with
          | inverted a b => cases h
          | diverged => cases h
      | ok rank =>
          rw [hrank] at h
          cases h

theorem Db.createIssue_ne {db : Db} {row : Issue} {labelIds : List JsString}
    (hid : ∀ i ∈ db.issues, i.id ≠ row.id)
    (hnumber : ∀ i ∈ db.issues, i.projectId = row.projectId → i.number ≠ row.number)
    (hlabels : labelIds.Nodup) :
    db.createIssue row labelIds ≠ .error (.prisma .uniqueConstraint) := by
  have hunique : ¬(db.issues.any (·.id == row.id) ||
      db.issues.any (fun i => i.projectId == row.projectId && i.number == row.number) ||
      !decide labelIds.Nodup) = true := by
    simpa using ⟨⟨hid, hnumber⟩, hlabels⟩
  rw [Db.createIssue, if_neg hunique]
  split
  · nofun
  · nofun

/-- The next number of the project is free: `create` is not refused. -/
theorem create_not_refused {w : World} {organizationId actorId projectKey : JsString}
    {input : CreateIssueInput} {g : Gen} {project : Project}
    (hproject : w.db.findProject organizationId projectKey = some project)
    (hfree : ∀ p ∈ w.db.projects, p.id = project.id →
      ∀ i ∈ w.db.issues, i.projectId = project.id → i.number ≠ p.issueCounter + 1)
    (hlabels : input.labelIds.Nodup) (hfresh : ∀ i ∈ w.db.issues, i.id ≠ (g.cuid 0).val) :
    (IssuesService.create organizationId actorId projectKey input g w).1 ≠
      .error (.prisma .uniqueConstraint) := by
  have htx : ∀ e, w.db.createIssueTx organizationId actorId project.id input g = .error e →
      e ≠ .prisma .uniqueConstraint := by
    rintro e he rfl
    unfold Db.createIssueTx Db.incrementIssueCounter at he
    cases hp : w.db.projects.find? (·.id == project.id) with
    | none =>
        rw [hp] at he
        cases he
    | some p =>
        simp only [hp, bind, Except.bind] at he
        split at he
        · rename_i e hrank
          cases he
          exact appendRank_ne hrank
        · rename_i rank hrank
          have hid : p.id = project.id := by simpa using List.find?_some hp
          exact Db.createIssue_ne hfresh (hfree p (List.mem_of_find?_eq_some hp) hid) hlabels he
  intro h
  rw [IssuesService.create, IssuesService.resolveProject_bind, hproject] at h
  dsimp only at h
  rw [Service.exec_bind] at h
  cases hres : w.db.createIssueTx organizationId actorId project.id input g with
  | error e =>
      rw [hres] at h
      exact htx e hres (Except.error.inj h)
  | ok r =>
      obtain ⟨issue, db⟩ := r
      rw [hres] at h
      simp only [Service.record_bind, Service.emit_bind] at h
      cases hassignee : truthy issue.assigneeId with
      | none =>
          rw [hassignee] at h
          cases h
      | some recipientId =>
          rw [hassignee] at h
          cases h

/-- The counter of the project is at least every number in it, and `create` meets no other issue
with its number. -/
structure CounterAhead (p : Project) (w : World) : Prop where
  numbers : ∀ i ∈ w.db.issues, i.projectId = p.id → i.number ≤ p.issueCounter
  creates : ∀ actorId input g, input.labelIds.Nodup → (∀ i ∈ w.db.issues, i.id ≠ (g.cuid 0).val) →
    (IssuesService.create p.organizationId actorId p.key input g w).1 ≠
      .error (.prisma .uniqueConstraint)

/-- Every number is at most the counter, so the next one is free. -/
theorem CounterAhead.of_numbers {p : Project} {w : World}
    (hfound : w.db.findProject p.organizationId p.key = some p)
    (hcounter : ∀ q ∈ w.db.projects, q.id = p.id → q.issueCounter = p.issueCounter)
    (hnumbers : ∀ i ∈ w.db.issues, i.projectId = p.id → i.number ≤ p.issueCounter) :
    CounterAhead p w := by
  refine ⟨hnumbers, fun actorId input g hlabels hids => ?_⟩
  refine create_not_refused hfound (fun q hq hid i hi hproject => ?_) hlabels hids
  rw [hcounter q hq hid]
  exact Nat.ne_of_lt (Nat.lt_succ_of_le (hnumbers i hi hproject))

theorem Db.findProject_setIssueCounter {db db' : Db} {organizationId key : JsString} {p : Project}
    {issueCounter : ℕ} {now : Date} (h : db.findProject organizationId key = some p)
    (hprojects : db'.projects =
      updateWhere (·.id == p.id) (Project.setIssueCounter issueCounter now) db.projects) :
    db'.findProject organizationId key = some (p.setIssueCounter issueCounter now) := by
  rw [Db.findProject] at h
  rw [Db.findProject, hprojects, find?_updateWhere, h, Option.map_some,
    if_pos (beq_self_eq_true p.id)]
  intro q _ _
  rfl

/-- **When seeding again keeps the counter ahead.**  The seed was run, and any calls were served
since.  Then the seed can be run again, and the counter of `PM` is at least every number afterwards,
so that `create` is not refused, if and only if no issue of the project had a number above 7. -/
theorem reseed_iff {env : ApiEnv} {g g' : Gen} {w₀ w₁ w₂ : World} {calls : List (ApiCall × Gen)}
    (hseed : Seed.main g w₀ = (.ok (), w₁)) (hrun : Run (ApiStep env) w₁ calls w₂)
    (hfresh : g'.FreshIssues w₂.db) :
    ∃ w₃ p, Seed.main g' w₂ = (.ok (), w₃) ∧ w₃.db.demoProject = some p ∧
      (CounterAhead p w₃ ↔ ∀ i ∈ w₂.db.issues, i.projectId = p.id → i.number ≤ 7) := by
  have hseeded : Seeded w₂.db := (Seed.seeded_of_main hseed).keeps (keepsSeed_of_run hrun)
  obtain ⟨p, hp⟩ := hseeded.project
  obtain ⟨rows, hrows, hmain⟩ := Seed.main_seeded hseeded hfresh hp
  obtain ⟨org, horg, hproject⟩ := Db.demoProject_eq hp
  obtain ⟨hmem, horgId, hkey⟩ := Db.findProject_some hproject
  have hfound : ∀ db : Db, db.projects = updateWhere (·.id == p.id)
      (Project.setIssueCounter 7 g'.now) w₂.db.projects →
        db.findProject org.id (js "PM") = some (p.setIssueCounter 7 g'.now) :=
    fun db hdb => Db.findProject_setIssueCounter hproject hdb
  refine ⟨_, p.setIssueCounter 7 g'.now, hmain, Option.bind_eq_some_iff.2 ⟨org, horg, hfound _ rfl⟩,
    fun hahead i hi hmine => ?_, fun hall => ?_⟩
  · exact hahead.numbers i (List.mem_append_left _ hi) hmine
  · refine .of_numbers ?_ (fun q hq hid => ?_) fun i hi hmine => ?_
    · rw [show (p.setIssueCounter 7 g'.now).organizationId = org.id from horgId,
        show (p.setIssueCounter 7 g'.now).key = js "PM" from hkey]
      exact hfound _ rfl
    · obtain ⟨q₀, hq₀, rfl⟩ := mem_updateWhere.1 hq
      split at hid
      · rename_i hsame
        rw [if_pos hsame]
        rfl
      · rename_i hother
        exact absurd (beq_iff_eq.2 hid) hother
    · obtain hi | hi := List.mem_append.1 hi
      · exact hall i hi hmine
      · exact hrows i hi

/-! ### An issue between two seeds -/

namespace Seed.Samples

theorem cuidFormat_replicate (n : ℕ) : cuidFormat (99 :: List.replicate n 97) = true := by
  simp [cuidFormat]

/-- Ids of increasing length. -/
def draw (n : ℕ) : Gen :=
  ⟨0, fun k => ⟨99 :: List.replicate (n + k) 97, cuidFormat_replicate (n + k)⟩, fun _ => []⟩

theorem draw_fresh {n : ℕ} {db : Db} (h : ∀ i ∈ db.issues, i.id.length ≤ n) :
    (draw n).FreshIssues db := by
  refine ⟨fun j k hjk => ?_, fun k i hi hid => ?_⟩
  · have hlength := congrArg (fun id => id.val.length) hjk
    simp only [draw, List.length_cons, List.length_replicate] at hlength
    omega
  · have hlength := h i hi
    rw [hid] at hlength
    simp only [draw, List.length_cons, List.length_replicate] at hlength
    omega

def env : ApiEnv := ⟨⟨[], 0⟩, [], [], [], []⟩

def seeded : World := (main (draw 0) World.empty).2

def ownerId : JsString := ((draw 0).cuid 0).val

/-- The demo owner creates an issue. -/
def createEighth : ApiCall :=
  .tenant ⟨ownerId, ownerEmail⟩ (js "acme") (.createIssue (js "PM") { title := js "Task" })

def used : World := createEighth.exec env (draw 30) seeded

/-- The owner removes it. -/
def removeEighth : ApiCall :=
  .tenant ⟨ownerId, ownerEmail⟩ (js "acme") (.removeIssue ((draw 30).cuid 0).val)

def tidied : World := removeEighth.exec env (draw 40) used

def again : World := (main (draw 40) used).2

/-- The project `PM` after the seed. -/
def project : Project :=
  (newProject ((draw 0).cuid 3).val (some ((draw 0).cuid 8).val) (draw 9)).setIssueCounter 7 0

end Seed.Samples

open Seed.Samples in
theorem reseed_untouched : used.db.issues.map Issue.number = [1, 2, 3, 4, 5, 6, 7, 8] ∧
    ∃ w₃ p, Seed.main (draw 50) tidied = (.ok (), w₃) ∧ w₃.db.demoProject = some p ∧
      CounterAhead p w₃ := by
  have hids : ∀ i ∈ tidied.db.issues, i.id.length ≤ 50 := by decide +kernel
  have hnumbers : ∀ i ∈ tidied.db.issues, i.number ≤ 7 := by decide +kernel
  have hseed : Seed.main (draw 0) World.empty = (.ok (), seeded) := by decide +kernel
  have hrun : Run (ApiStep env) seeded [(createEighth, draw 30), (removeEighth, draw 40)] tidied :=
    (Run.nil.snoc rfl).snoc rfl
  obtain ⟨w₃, p, hmain, hp, hiff⟩ := reseed_iff hseed hrun (draw_fresh hids)
  exact ⟨by decide +kernel, w₃, p, hmain, hp, hiff.2 fun i hi _ => hnumbers i hi⟩

open Seed.Samples in
/-- The owner's issue got number 8.  After the second seed the counter is 7, and the next issue is
refused. -/
theorem reseed_resets_counter :
    Seed.main (draw 0) World.empty = (.ok (), seeded) ∧
    Run (ApiStep env) seeded [(createEighth, draw 30)] used ∧
    Seed.main (draw 40) used = (.ok (), again) ∧
    again.db.demoProject = some project ∧
    (∃ i ∈ again.db.issues, i.projectId = project.id ∧ project.issueCounter < i.number) ∧
    (IssuesService.create project.organizationId ownerId project.key { title := js "Task" }
      (draw 60) again).1 = .error (.prisma .uniqueConstraint) := by
  refine ⟨by decide +kernel, Run.nil.snoc rfl, ?_⟩
  decide +kernel

end PmSaas
