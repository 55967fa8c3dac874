import PmSaas.Lib.Interleaving
import PmSaas.Orgs.OrgTasks

/-!
# Registrations that fail half-way

`register` inserts the user, searches a slug, inserts the organization and issues the tokens in
separate calls.  Any number of registrations take turns, one database call at a time, and any call
may fail; a slug that was free when it was looked up may be taken by the time it is used.  Nothing
removes the user when a later call fails.

* `Registering.Inv`: how far a registration has come, and what it has stored by then;
* `Registering.goes`, `Registering.abandoned_of_disturbed`: what a call does that is not disturbed,
  and one that is;
* `register_complete_iff`: every registration that is answered has stored all it should, or nothing,
  exactly as long as no call after the insertion of a user fails.
-/

namespace PmSaas

open Table TransitionSystem

/-- The account on behalf of which a task goes on after its insertion. -/
def OrgTask.account : OrgTask → Option User
  | .slugging user _ _ _ => some user
  | .creatingOrg user _ _ _ => some user
  | .issuing user _ => some user
  | .auditing _ (.issue user _) => some user
  | _ => none

/-- The next call fails with `e` and writes nothing; a failed audit insert is swallowed. -/
def OrgTask.fails (e : Exn) : OrgTask → OrgTask
  | .auditing _ (.issue user device) => .issuing user device
  | .auditing _ _ => .done (.ok ())
  | .done answer => .done answer
  | _ => .done (.error e)

/-- What the schema says of the organization's name. -/
def RegisterInput.Accepted (input : RegisterInput) : Prop := ∀ name ∈ input.orgName, name ≠ []

/-- No stored row has a unique column in common with the new ones. -/
def Db.Admits (new : NewOrganization) (db : Db) : Prop :=
  (∀ o ∈ db.organizations, o.id ≠ new.organization.id ∧ o.slug ≠ new.organization.slug) ∧
    (∀ m ∈ db.memberships, m.id ≠ new.membership.id) ∧
    ∀ s ∈ db.subscriptions, s.id ≠ new.subscription.id

instance (new : NewOrganization) (db : Db) : Decidable (db.Admits new) :=
  inferInstanceAs (Decidable (_ ∧ _ ∧ _))

/-- Losing the next call leaves no user behind. -/
def OrgTask.spared : OrgTask → Bool
  | .slugging .. | .creatingOrg .. | .issuing .. => false
  | _ => true

/-- No unique column stands in the way of the next call. -/
def OrgTask.unblocked (g : Gen) (w : World) : OrgTask → Bool
  | .creatingOrg user name slug _ => decide (w.db.Admits (newOrganization user.id name slug g))
  | .issuing .. => decide (∀ t ∈ w.db.refreshTokens,
      t.id ≠ (g.cuid 0).val ∧ t.tokenHash ≠ TokenService.hash (TokenService.randomToken g))
  | _ => true

/-- A registration under way. -/
structure Registering where
  input : RegisterInput
  task : OrgTask
  /-- The row that the registration has inserted; no step reads it. -/
  user : Option User

inductive RegisterAct where
  | run (g : Gen)
  | fail (e : Exn)

namespace Registering

def act (env : Env) : RegisterAct → Registering → World → Registering × World
  | .run g, r, w =>
      ({ r with
          task := (r.task.step env g w).1
          user := r.user.or (r.task.step env g w).1.account }, (r.task.step env g w).2)
  | .fail e, r, w => ({ r with task := r.task.fails e }, w)

/-- A call that is about to be made after the insertion of the user does not fail: the connection
holds, the slug is still free, and the values it generates are new. -/
def Undisturbed (r : Registering) (w : World) : RegisterAct → Prop
  | .fail _ => r.task.spared = true
  | .run g => r.task.unblocked g w = true

instance (r : Registering) (w : World) : (a : RegisterAct) → Decidable (r.Undisturbed w a)
  | .fail _ => inferInstanceAs (Decidable (_ = _))
  | .run _ => inferInstanceAs (Decidable (_ = _))

end Registering

/-- The registrations, one for each `τ`, and the server. -/
abbrev Registrations (τ : Type*) := Pool τ Registering World

namespace Registrations

variable {τ : Type*}

def next [DecidableEq τ] (env : Env) (s : Registrations τ) (a : τ × RegisterAct) :
    Registrations τ :=
  s.advance (Registering.act env a.2) a.1

def Undisturbed (s : Registrations τ) (a : τ × RegisterAct) : Prop :=
  (s.thread a.1).Undisturbed s.store a.2

instance (s : Registrations τ) (a : τ × RegisterAct) : Decidable (s.Undisturbed a) :=
  inferInstanceAs (Decidable (Registering.Undisturbed ..))

/-- The requests have passed the schema, and nothing is done yet. -/
def Start (s : Registrations τ) : Prop :=
  ∀ t, (s.thread t).input.Accepted ∧ (s.thread t).user = none ∧
    ∃ device, (s.thread t).task = .start (.register (s.thread t).input device)

end Registrations

/-- The user owns an organization of the name. -/
def Owns (db : Db) (user : User) (name : JsString) : Prop :=
  ∃ o ∈ db.organizations, o.name = name ∧
    ∃ m ∈ db.memberships, m.userId = user.id ∧ m.organizationId = o.id ∧ m.role = .OWNER

namespace Registering

/-- `own` is the user row that was asked for, and it is stored. -/
structure Has (db : Db) (input : RegisterInput) (own : Option User) (user : User) : Prop where
  inserted : own = some user
  stored : user ∈ db.users
  email : user.email = input.email

/-- The user row, and the organization if one was asked for. -/
structure Complete (db : Db) (input : RegisterInput) (own : Option User) (user : User) : Prop
    extends Has db input own user where
  owns : ∀ name ∈ input.orgName, Owns db user name

/-- A registration that has returned its tokens is complete, and one that has thrown has left no
user row. -/
def Settled (db : Db) (r : Registering) : Prop :=
  match r.task with
  | .done (.ok ()) => ∃ user, Complete db r.input r.user user
  | .done (.error _) => r.user = none
  | _ => True

/-- How far a registration has come. -/
def Inv (db : Db) (r : Registering) : Prop :=
  r.input.Accepted ∧
  match r.task with
  | .start (.register input _) => input = r.input ∧ r.user = none
  | .creatingUser input _ => input = r.input ∧ r.user = none
  | .slugging user name _ _ => Has db r.input r.user user ∧ r.input.orgName = some name
  | .creatingOrg user name _ _ => Has db r.input r.user user ∧ r.input.orgName = some name
  | .auditing _ (.issue user _) => Complete db r.input r.user user
  | .issuing user _ => Complete db r.input r.user user
  | .done (.ok ()) => ∃ user, Complete db r.input r.user user
  | .done (.error _) => r.user = none
  | _ => False

end Registering

/-- Registrations only add rows. -/
structure Db.GrowsTo (db db' : Db) : Prop where
  users : db.users ⊆ db'.users
  organizations : db.organizations ⊆ db'.organizations
  memberships : db.memberships ⊆ db'.memberships

section Steps

variable {env : Env} {g : Gen} {w : World} {db db' : Db} {r : Registering} {user : User}
  {input : RegisterInput} {device : DeviceInfo} {own : Option User}

theorem Owns.mono {name : JsString} (h : Owns db user name) (hgrows : db.GrowsTo db') :
    Owns db' user name := by
  obtain ⟨o, ho, hname, m, hm, howner⟩ := h
  exact ⟨o, hgrows.organizations ho, hname, m, hgrows.memberships hm, howner⟩

namespace Registering

theorem Has.mono (h : Has db input own user) (hgrows : db.GrowsTo db') : Has db' input own user :=
  ⟨h.inserted, hgrows.users h.stored, h.email⟩

theorem Complete.mono (h : Complete db input own user) (hgrows : db.GrowsTo db') :
    Complete db' input own user :=
  ⟨h.toHas.mono hgrows, fun name hname => (h.owns name hname).mono hgrows⟩

/-- What others store does not set a registration back. -/
theorem Inv.mono (h : r.Inv db) (hgrows : db.GrowsTo db') : r.Inv db' := by
  obtain ⟨input, task, own⟩ := r
  obtain ⟨haccepted, h⟩ := h
  refine ⟨haccepted, ?_⟩
  cases task with
  | start request =>
      cases request with
      | register input device => exact h
      | _ => exact h.elim
  | creatingUser input device => exact h
  | slugging user name device turn => exact ⟨h.1.mono hgrows, h.2⟩
  | creatingOrg user name slug device => exact ⟨h.1.mono hgrows, h.2⟩
  | issuing user device => exact Complete.mono h hgrows
  | auditing entry next =>
      cases next with
      | issue user device => exact Complete.mono h hgrows
      | _ => exact h.elim
  | done answer =>
      cases answer with
      | ok =>
          obtain ⟨user, hcomplete⟩ := h
          exact ⟨user, hcomplete.mono hgrows⟩
      | error e => exact h
  | _ => exact h.elim

theorem Inv.settled (h : r.Inv db) : r.Settled db := by
  obtain ⟨input, task, own⟩ := r
  cases task with
  | done answer =>
      cases answer with
      | ok => exact h.2
      | error e => exact h.2
  | _ => trivial

end Registering

theorem Db.GrowsTo.refl (db : Db) : db.GrowsTo db :=
  ⟨List.Subset.refl _, List.Subset.refl _, List.Subset.refl _⟩

theorem Db.GrowsTo.auditLogs (db : Db) (logs : List AuditLog) :
    db.GrowsTo { db with auditLogs := logs } :=
  ⟨List.Subset.refl _, List.Subset.refl _, List.Subset.refl _⟩

/-! ### One call -/

/-- What a call of a registration leaves behind, unless it is one that must not fail. -/
structure Registering.Goes (r : Registering) (w : World) (r' : Registering) (w' : World) : Prop where
  inv : r'.Inv w'.db
  grows : w.db.GrowsTo w'.db
  /-- A row that it inserts is its own. -/
  users : ∀ user ∈ w'.db.users, user ∈ w.db.users ∨ r'.user = some user
  keeps : ∀ user ∈ r.user, r'.user = some user

namespace Registering

/-- Nothing is written but tokens and audit rows. -/
theorem Goes.aside {r' : Registering} {w' : World} (hinv : r'.Inv w'.db) (hown : r'.user = r.user)
    (hgrows : w.db.GrowsTo w'.db) (husers : w'.db.users = w.db.users) : Goes r w r' w' :=
  ⟨hinv, hgrows, fun _ huser => .inl (husers ▸ huser), fun _ huser => hown.trans huser⟩

theorem goes_start (h : Inv w.db ⟨input, .start (.register input device), none⟩) :
    Goes ⟨input, .start (.register input device), none⟩ w
      (act env (.run g) ⟨input, .start (.register input device), none⟩ w).1
      (act env (.run g) ⟨input, .start (.register input device), none⟩ w).2 := by
  simp only [act, OrgTask.step]
  split
  · exact .aside ⟨h.1, rfl⟩ rfl (.refl _) rfl
  · exact .aside ⟨h.1, rfl, rfl⟩ rfl (.refl _) rfl

/-- The user row is inserted, or nothing is. -/
theorem goes_creatingUser (h : Inv w.db ⟨input, .creatingUser input device, none⟩) :
    Goes ⟨input, .creatingUser input device, none⟩ w
      (act env (.run g) ⟨input, .creatingUser input device, none⟩ w).1
      (act env (.run g) ⟨input, .creatingUser input device, none⟩ w).2 := by
  simp only [act, OrgTask.step]
  cases hc : w.db.createUser (AuthService.newUser input g) with
  | error e => exact .aside ⟨h.1, rfl⟩ rfl (.refl _) rfl
  | ok r =>
      obtain ⟨user, db⟩ := r
      obtain ⟨rfl, rfl, -⟩ := Db.createUser_ok hc
      have hgrows : w.db.GrowsTo { w.db with users := w.db.users ++ [AuthService.newUser input g] } :=
        ⟨List.subset_append_left .., List.Subset.refl _, List.Subset.refl _⟩
      have husers : ∀ user ∈ w.db.users ++ [AuthService.newUser input g], user ∈ w.db.users ∨
          some (AuthService.newUser input g) = some user := by
        intro user huser
        rcases List.mem_append.1 huser with huser | huser
        · exact .inl huser
        · exact .inr (by rw [List.mem_singleton.1 huser])
      have hstored : AuthService.newUser input g ∈
          w.db.users ++ [AuthService.newUser input g] := by simp
      cases hname : truthy input.orgName with
      | some name =>
          have horg : input.orgName = some name := (Option.filter_eq_some_iff.1 hname).1
          exact ⟨⟨h.1, ⟨rfl, hstored, rfl⟩, horg⟩, hgrows, husers, by simp⟩
      | none =>
          refine ⟨⟨h.1, ⟨rfl, hstored, rfl⟩, fun name horg => ?_⟩, hgrows, husers, by simp⟩
          exact absurd (Option.filter_eq_none_iff.1 hname name horg) (by simpa using h.1 name horg)

/-- An inserted organization is the user's. -/
theorem owns_inserted (user : User) (name slug : JsString) (g : Gen) :
    Owns (db.insertOrganization (newOrganization user.id name slug g)) user name :=
  ⟨(newOrganization user.id name slug g).organization, by simp [Db.insertOrganization], rfl,
    (newOrganization user.id name slug g).membership, by simp [Db.insertOrganization], rfl, rfl, rfl⟩

/-- The insertion of the organization fails exactly when a unique column is taken. -/
theorem createOrganization_eq {new : NewOrganization}
    (huser : ∃ u ∈ db.users, u.id = new.membership.userId) :
    (db.Admits new ∧ db.createOrganization new = .ok (new.organization, db.insertOrganization new)) ∨
      (¬db.Admits new ∧ db.createOrganization new = .error (.prisma .uniqueConstraint)) := by
  have hknown : db.users.any (·.id == new.membership.userId) = true := by simpa using huser
  have hadmits : db.Admits new ↔ ¬((db.organizations.any (fun o =>
        o.id == new.organization.id || o.slug == new.organization.slug) ||
      db.memberships.any (·.id == new.membership.id) ||
      db.subscriptions.any (·.id == new.subscription.id)) = true) := by
    simp only [Db.Admits, Bool.or_eq_true, not_or, List.any_eq_true, not_exists, not_and, beq_iff_eq,
      and_assoc]
  rw [hadmits]
  unfold Db.createOrganization
  split
  · rename_i hused
    exact .inr ⟨not_not_intro hused, rfl⟩
  · rename_i hfree
    rw [hknown]
    exact .inl ⟨hfree, rfl⟩

theorem goes_creatingOrg {name slug : JsString}
    (h : Inv w.db ⟨input, .creatingOrg user name slug device, own⟩)
    (hcalm : Undisturbed ⟨input, .creatingOrg user name slug device, own⟩ w (.run g)) :
    Goes ⟨input, .creatingOrg user name slug device, own⟩ w
      (act env (.run g) ⟨input, .creatingOrg user name slug device, own⟩ w).1
      (act env (.run g) ⟨input, .creatingOrg user name slug device, own⟩ w).2 := by
  obtain ⟨haccepted, hhas, hname⟩ := h
  obtain rfl : own = some user := hhas.inserted
  have huser : ∃ u ∈ w.db.users,
      u.id = (newOrganization user.id name slug g).membership.userId := ⟨user, hhas.stored, rfl⟩
  obtain ⟨-, hc⟩ | ⟨hno, -⟩ := createOrganization_eq huser
  case inr => exact absurd (of_decide_eq_true hcalm) hno
  simp only [act, OrgTask.step, hc]
  have hgrows : w.db.GrowsTo
      (w.db.insertOrganization (newOrganization user.id name slug g)) :=
    ⟨List.Subset.refl _, List.subset_append_left .., List.subset_append_left ..⟩
  refine .aside ⟨haccepted, hhas.mono hgrows, fun name' hname' => ?_⟩ rfl hgrows rfl
  obtain rfl : name = name' := Option.some.inj (hname.symm.trans hname')
  exact owns_inserted user name slug g

theorem goes_auditing {entry : AuditEntry}
    (h : Inv w.db ⟨input, .auditing entry (.issue user device), own⟩) :
    Goes ⟨input, .auditing entry (.issue user device), own⟩ w
      (act env (.run g) ⟨input, .auditing entry (.issue user device), own⟩ w).1
      (act env (.run g) ⟨input, .auditing entry (.issue user device), own⟩ w).2 := by
  obtain ⟨haccepted, hcomplete⟩ := h
  obtain rfl : own = some user := hcomplete.inserted
  have hafter : Aftermath entry.organizationId w (w.recorded entry (g.cuid 0) g.now) := .recorded ..
  obtain ⟨logs, -, hdb⟩ := hafter.db
  have hgrows : w.db.GrowsTo (w.recorded entry (g.cuid 0) g.now).db := by
    rw [hdb]
    exact .auditLogs ..
  exact .aside ⟨haccepted, hcomplete.mono hgrows⟩ rfl hgrows (by simp only [act, OrgTask.step, hdb])

theorem goes_issuing (h : Inv w.db ⟨input, .issuing user device, own⟩)
    (hcalm : Undisturbed ⟨input, .issuing user device, own⟩ w (.run g)) :
    Goes ⟨input, .issuing user device, own⟩ w
      (act env (.run g) ⟨input, .issuing user device, own⟩ w).1
      (act env (.run g) ⟨input, .issuing user device, own⟩ w).2 := by
  obtain ⟨haccepted, hcomplete⟩ := h
  obtain rfl : own = some user := hcomplete.inserted
  have hfree : w.db.refreshTokens.any (fun t => t.id == (g.cuid 0).val ||
      t.tokenHash == TokenService.hash (TokenService.randomToken g)) = false := by
    simp only [List.any_eq_false, Bool.or_eq_true, beq_iff_eq, not_or]
    exact of_decide_eq_true hcalm
  have hissued := TokenService.issueForUser_answer env ⟨user.id, user.email⟩ device g
    ⟨user, hcomplete.stored, rfl⟩
  rw [hfree] at hissued
  obtain ⟨tokens, hworld⟩ :=
    TokenService.issueForUser_frame env ⟨user.id, user.email⟩ device g w
  simp only [act, OrgTask.step, hissued, hworld]
  have hgrows : w.db.GrowsTo (TokenService.withTokens w tokens).db :=
    ⟨List.Subset.refl _, List.Subset.refl _, List.Subset.refl _⟩
  exact .aside ⟨haccepted, user, hcomplete.mono hgrows⟩ rfl hgrows rfl

/-- **A call that returns** takes the registration on. -/
theorem goes_run (h : r.Inv w.db) (hcalm : r.Undisturbed w (.run g)) :
    Goes r w (r.act env (.run g) w).1 (r.act env (.run g) w).2 := by
  obtain ⟨input, task, own⟩ := r
  cases task with
  | start request =>
      cases request with
      | register input' device =>
          obtain ⟨haccepted, rfl, rfl⟩ := h
          exact goes_start ⟨haccepted, rfl, rfl⟩
      | _ => exact h.2.elim
  | creatingUser input' device =>
      obtain ⟨haccepted, rfl, rfl⟩ := h
      exact goes_creatingUser ⟨haccepted, rfl, rfl⟩
  | slugging user name device turn =>
      obtain ⟨haccepted, hhas, hname⟩ := h
      obtain rfl : own = some user := hhas.inserted
      simp only [act, OrgTask.step]
      split
      · exact .aside ⟨haccepted, hhas, hname⟩ rfl (.refl _) rfl
      · exact .aside ⟨haccepted, hhas, hname⟩ rfl (.refl _) rfl
  | creatingOrg user name slug device => exact goes_creatingOrg h hcalm
  | issuing user device => exact goes_issuing h hcalm
  | auditing entry next =>
      cases next with
      | issue user device => exact goes_auditing h
      | _ => exact h.2.elim
  | done answer =>
      have hown : own.or (none : Option User) = own := Option.or_none
      simp only [act, OrgTask.step, OrgTask.account, hown]
      exact .aside h rfl (.refl _) rfl
  | _ => exact h.2.elim

/-- The answer is an error, and the user row stays. -/
def Abandoned (r : Registering) : Prop := (∃ e, r.task = .done (.error e)) ∧ ∃ user, r.user = some user

theorem Abandoned.not_settled (h : r.Abandoned) : ¬r.Settled db := by
  obtain ⟨⟨e, htask⟩, user, huser⟩ := h
  simp [Settled, htask, huser]

/-- **A call that fails** in time takes nothing along. -/
theorem goes_fail {e : Exn} (h : r.Inv w.db) (hcalm : r.Undisturbed w (.fail e)) :
    Goes r w (r.act env (.fail e) w).1 (r.act env (.fail e) w).2 := by
  obtain ⟨input, task, own⟩ := r
  obtain ⟨haccepted, h⟩ := h
  refine .aside ?_ rfl (.refl _) rfl
  cases task with
  | start request =>
      cases request with
      | register input' device => exact ⟨haccepted, h.2⟩
      | _ => exact h.elim
  | creatingUser input' device => exact ⟨haccepted, h.2⟩
  | slugging user name device turn => cases hcalm
  | creatingOrg user name slug device => cases hcalm
  | issuing user device => cases hcalm
  | auditing entry next =>
      cases next with
      | issue user device => exact ⟨haccepted, h⟩
      | _ => exact h.elim
  | done answer => exact ⟨haccepted, h⟩
  | _ => exact h.elim

/-- A disturbed call leaves the user behind. -/
theorem abandoned_of_disturbed (env : Env) {a : RegisterAct} (h : r.Inv w.db)
    (hdisturbed : ¬r.Undisturbed w a) :
    (r.act env a w).1.Abandoned := by
  obtain ⟨input, task, own⟩ := r
  obtain ⟨haccepted, h⟩ := h
  cases a with
  | fail e =>
      cases task with
      | slugging user name device turn => exact ⟨⟨e, rfl⟩, user, h.1.inserted⟩
      | creatingOrg user name slug device => exact ⟨⟨e, rfl⟩, user, h.1.inserted⟩
      | issuing user device => exact ⟨⟨e, rfl⟩, user, h.inserted⟩
      | _ => exact absurd rfl hdisturbed
  | run g =>
      cases task with
      | creatingOrg user name slug device =>
          obtain rfl : own = some user := h.1.inserted
          have huser : ∃ u ∈ w.db.users,
              u.id = (newOrganization user.id name slug g).membership.userId := ⟨user, h.1.stored, rfl⟩
          obtain ⟨hadmits, -⟩ | ⟨-, hc⟩ := createOrganization_eq huser
          · exact absurd (decide_eq_true hadmits) hdisturbed
          · exact ⟨⟨.prisma .uniqueConstraint, by simp only [act, OrgTask.step, hc, OrgTask.written]⟩,
              user, rfl⟩
      | issuing user device =>
          obtain rfl : own = some user := h.inserted
          have hissued := TokenService.issueForUser_answer env ⟨user.id, user.email⟩ device g
            ⟨user, h.stored, rfl⟩
          have hused : w.db.refreshTokens.any (fun t => t.id == (g.cuid 0).val ||
              t.tokenHash == TokenService.hash (TokenService.randomToken g)) = true := by
            by_contra hfree
            refine hdisturbed (decide_eq_true fun t ht => ?_)
            have hne := fun hor => hfree (List.any_eq_true.2 ⟨t, ht, hor⟩)
            simpa using hne
          rw [if_pos hused] at hissued
          exact ⟨⟨_, by simp only [act, OrgTask.step, hissued]; rfl⟩, user, rfl⟩
      | _ => exact absurd rfl hdisturbed

theorem goes (env : Env) {a : RegisterAct} (h : r.Inv w.db) (hcalm : r.Undisturbed w a) :
    Goes r w (r.act env a w).1 (r.act env a w).2 := by
  cases a with
  | run g => exact goes_run h hcalm
  | fail e => exact goes_fail h hcalm

end Registering

end Steps

/-! ### Runs -/

namespace Registrations

variable {τ : Type*} {env : Env}

/-- Every registration is as it should be, and the users are the `old` ones and theirs. -/
structure Settled (old : List User) (s : Registrations τ) : Prop where
  threads : ∀ t, (s.thread t).Settled s.store.db
  users : ∀ user ∈ s.store.db.users, user ∈ old ∨ ∃ t, (s.thread t).user = some user

structure Inv (old : List User) (s : Registrations τ) : Prop where
  threads : ∀ t, (s.thread t).Inv s.store.db
  users : ∀ user ∈ s.store.db.users, user ∈ old ∨ ∃ t, (s.thread t).user = some user

variable {old : List User} {s : Registrations τ}

theorem Inv.settled (h : s.Inv old) : s.Settled old := ⟨fun t => (h.threads t).settled, h.users⟩

theorem Start.inv (h : s.Start) : s.Inv s.store.db.users where
  threads t := by
    obtain ⟨haccepted, huser, device, htask⟩ := h t
    refine ⟨haccepted, ?_⟩
    rw [htask]
    exact ⟨rfl, huser⟩
  users _ huser := .inl huser

variable [DecidableEq τ]

/-- **A step that is not disturbed** keeps all registrations going. -/
theorem Inv.next {a : τ × RegisterAct} (h : s.Inv old) (hcalm : s.Undisturbed a) :
    (s.next env a).Inv old := by
  obtain ⟨t, a⟩ := a
  have hgoes := Registering.goes env (h.threads t) hcalm
  have hself : (s.next env (t, a)).thread t = ((s.thread t).act env a s.store).1 :=
    Pool.advance_thread_self ..
  have hothers : ∀ {t'}, t' ≠ t → (s.next env (t, a)).thread t' = s.thread t' :=
    fun hne => Pool.advance_thread_of_ne _ _ hne
  have hstore : (s.next env (t, a)).store = ((s.thread t).act env a s.store).2 := rfl
  constructor
  · intro t'
    rw [hstore]
    by_cases ht : t' = t
    · rw [ht, hself]
      exact hgoes.inv
    · rw [hothers ht]
      exact (h.threads t').mono hgoes.grows
  · intro user huser
    rw [hstore] at huser
    rcases hgoes.users user huser with hbefore | hnew
    · rcases h.users user hbefore with hold | ⟨t', ht'⟩
      · exact .inl hold
      · refine .inr ⟨t', ?_⟩
        by_cases ht : t' = t
        · rw [ht] at ht' ⊢
          rw [hself]
          exact hgoes.keeps user ht'
        · rw [hothers ht]
          exact ht'
    · exact .inr ⟨t, hself ▸ hnew⟩

/-- **A step settles everything exactly when it is not disturbed.** -/
theorem settled_next_iff {a : τ × RegisterAct} (h : s.Inv old) :
    (s.next env a).Settled old ↔ s.Undisturbed a := by
  constructor
  · intro hsettled
    by_contra hdisturbed
    have hleft := Registering.abandoned_of_disturbed env (h.threads a.1) hdisturbed
    have hself : (s.next env a).thread a.1 = ((s.thread a.1).act env a.2 s.store).1 :=
      Pool.advance_thread_self ..
    exact hleft.not_settled (hself ▸ hsettled.threads a.1)
  · exact fun hcalm => (h.next hcalm).settled

end Registrations

/-- **Registrations that fail half-way.**  Through a whole run of registrations that take turns,
each one that has answered has stored its user and organization, or has thrown and left no user,
exactly when no call after the insertion of a user fails. -/
theorem register_complete_iff {τ : Type*} [DecidableEq τ] (env : Env) {s₀ : Registrations τ}
    (hstart : s₀.Start) (as : List (τ × RegisterAct)) :
    Along (fun s a => (s.next env a).Settled s₀.store.db.users) (Registrations.next env) s₀ as ↔
      Along Registrations.Undisturbed (Registrations.next env) s₀ as :=
  Along.congr (P := Registrations.Inv s₀.store.db.users)
    (fun _ _ h => Registrations.settled_next_iff h) (fun _ _ h hcalm => h.next hcalm) hstart.inv

/-! ### Two registrations that name their organizations alike -/

namespace RegisterFailures.Samples

open TokenService.Samples

/-- Ann and Bob both call their organization Demo. -/
def input (t : Bool) : RegisterInput where
  email := if t then js "bob@demo.test" else js "ann@demo.test"
  password := js "password"
  name := if t then js "Bob" else js "Ann"
  orgName := some (js "Demo")

def start : Registrations Bool where
  store := World.empty
  thread t := ⟨input t, .start (.register (input t) device), none⟩

theorem start_ok : start.Start := fun t => ⟨fun _ h => by cases h; decide, rfl, device, rfl⟩

abbrev ann : Bool × RegisterAct := (false, .run first)
abbrev bob : Bool × RegisterAct := (true, .run second)

/-- Bob comes when Ann is through. -/
def oneByOne : List (Bool × RegisterAct) := List.replicate 6 ann ++ List.replicate 7 bob

/-- Both look the slug up before either organization is inserted. -/
def together : List (Bool × RegisterAct) :=
  [ann, ann, ann, bob, bob, bob, ann, bob]

end RegisterFailures.Samples

open RegisterFailures.Samples TokenService.Samples in
theorem register_complete_oneByOne :
    Along (fun s a => (s.next env a).Settled start.store.db.users) (Registrations.next env) start
      oneByOne :=
  (register_complete_iff env start_ok oneByOne).2 (by decide)

open RegisterFailures.Samples TokenService.Samples in
/-- Bob's organization fails on the slug, and his account stays. -/
theorem register_slug_race :
    ¬ ∀ (env : Env) (s₀ : Registrations Bool), s₀.Start → ∀ as,
      Along (fun s a => (s.next env a).Settled s₀.store.db.users) (Registrations.next env) s₀ as := by
  intro hall
  obtain ⟨-, -, -, -, -, -, -, hlast, -⟩ := hall env start start_ok together
  have hnone : some (AuthService.newUser (input true) second) = none := hlast.threads true
  cases hnone

end PmSaas
