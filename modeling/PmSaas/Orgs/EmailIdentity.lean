import PmSaas.Orgs.Ownership

/-!
# Which account does an address name?

`register` stores the address as it is typed and looks for exactly that address; `addMember` looks
for the lower-cased address; `acceptInvite` compares without regard to case.  An account registered
with a capital letter is found by nobody (`capital_not_found`).

`emailIdentity_iff`: an address names one account, which `addMember` finds, exactly as long as every
account's address is in lower case.
-/

namespace PmSaas

open Table JsString TransitionSystem

/-- Adding the address adds the account: `addMember` finds it, writes its membership and leaves the
invites. -/
structure AddsAccount (env : Env) (w : World) (email : JsString) (u : User) : Prop where
  found : w.db.findUserByEmail (toLowerCase email) = some u
  added : ∀ organizationId actorId role g, (∃ o ∈ w.db.organizations, o.id = organizationId) →
    (∀ m ∈ w.db.memberships, m.id ≠ (g.cuid 0).val) →
    ∃ m w', OrgsService.addMember env organizationId actorId email role g w =
        (.ok (.added m.id m.role u.id u.email u.name), w') ∧
      m ∈ w'.db.memberships ∧ m.userId = u.id ∧ m.organizationId = organizationId ∧
      m.role = role.val
  invites : ∀ organizationId actorId role g,
    (OrgsService.addMember env organizationId actorId email role g w).2.db.invites = w.db.invites

/-- Without regard to case, an address names at most one account, and adding it adds that. -/
structure EmailIdentity (env : Env) (w : World) : Prop where
  distinct : UniqueKey (fun u : User => toLowerCase u.email) w.db.users
  resolves : ∀ email, ∀ u ∈ w.db.users, toLowerCase email = toLowerCase u.email →
    AddsAccount env w email u

/-- Every account's address is in lower case. -/
def LowerCaseEmails (db : Db) : Prop := ∀ u ∈ db.users, toLowerCase u.email = u.email

/-- If the call registers an account, its address is in lower case. -/
def OrgCall.LowerCase : OrgCall → Prop
  | .register input _ _ => toLowerCase input.email = input.email
  | _ => True

/-- Any of the six operations, by anybody. -/
abbrev OrgRun (env : Env) : World → OrgCall → World → Prop :=
  Steps (fun _ _ => True) fun w call => call.exec env w

/-! ### Who registers -/

section Users

variable {env : Env} {w : World}

/-- Two accounts do not have the very same address. -/
theorem Db.createUser_email {row u : User} {db db' : Db} (h : db.createUser row = .ok (u, db')) :
    ∀ v ∈ db.users, v.email ≠ row.email := by
  unfold Db.createUser at h
  split at h
  · cases h
  · rename_i huniq
    simp only [List.any_eq_true, Bool.or_eq_true, beq_iff_eq, not_exists, not_and, not_or] at huniq
    exact fun v hv => (huniq v hv).2

/-- A call leaves the accounts, or registers one whose address is new. -/
theorem OrgCall.exec_users (call : OrgCall) :
    (call.exec env w).db.users = w.db.users ∨
    ∃ input device g, call = .register input device g ∧
      (∀ v ∈ w.db.users, v.email ≠ input.email) ∧
      (call.exec env w).db.users = w.db.users ++ [AuthService.newUser input g] := by
  obtain ⟨db', hwrites, hsame⟩ := call.exec_writes env w
  rw [hsame.users]
  cases hwrites with
  | nothing | roleSet | removed => exact .inl rfl
  | created hc =>
      obtain ⟨_, rfl, _⟩ := Db.createOrganization_ok hc
      exact .inl rfl
  | registered hu =>
      obtain ⟨_, rfl, _⟩ := Db.createUser_ok hu
      exact .inr ⟨_, _, _, rfl, Db.createUser_email hu, rfl⟩
  | registeredWith hu hc =>
      have hemail := Db.createUser_email hu
      obtain ⟨_, rfl, _⟩ := Db.createUser_ok hu
      obtain ⟨_, rfl, _⟩ := Db.createOrganization_ok hc
      exact .inr ⟨_, _, _, rfl, hemail, rfl⟩
  | added _ hu => rcases Db.upsertMembership_ok hu with rfl | ⟨rfl, _, _, _⟩ <;> exact .inl rfl
  | invited hi => rcases Db.upsertInvite_ok hi with rfl | rfl <;> exact .inl rfl
  | accepted _ _ _ hu hb =>
      obtain ⟨invites, rfl⟩ := Db.burnInvite_ok hb
      rcases Db.upsertMembership_ok hu with rfl | ⟨rfl, _, _, _⟩ <;> exact .inl rfl

/-- A call keeps the addresses distinct, and in lower case if it registers none that is not. -/
theorem OrgCall.exec_emails (call : OrgCall) (h : UniqueKey User.email w.db.users) :
    UniqueKey User.email (call.exec env w).db.users ∧
      (LowerCaseEmails w.db → call.LowerCase → LowerCaseEmails (call.exec env w).db) := by
  rcases @OrgCall.exec_users env w call with
    hsame | ⟨input, device, g, rfl, hfresh, hnew⟩
  · rw [LowerCaseEmails, LowerCaseEmails, hsame]
    exact ⟨h, fun hlower _ => hlower⟩
  · rw [LowerCaseEmails, LowerCaseEmails, hnew]
    refine ⟨h.insert hfresh, fun hlower hinput u hu => ?_⟩
    rcases List.mem_append.1 hu with hu | hu
    · exact hlower u hu
    · rw [List.mem_singleton.1 hu]
      exact hinput

end Users

/-! ### Adding an account -/

section Adding

variable {env : Env} {w : World} {email : JsString} {u : User}

/-- An upsert for an account goes through. -/
theorem Db.upsertMembership_of_user {db : Db} {organizationId : JsString} (role : Role) (id : Cuid)
    (now : Date) (hu : u ∈ db.users) (ho : ∃ o ∈ db.organizations, o.id = organizationId)
    (hid : ∀ m ∈ db.memberships, m.id ≠ id.val) :
    ∃ m db', db.upsertMembership u.id organizationId role id now = .ok (m, db') ∧
      m ∈ db'.memberships ∧ m.userId = u.id ∧ m.organizationId = organizationId ∧
      m.role = role := by
  rw [Db.upsertMembership]
  cases hfind : db.findMembership u.id organizationId with
  | some m =>
      obtain ⟨hm, hmu, hmo⟩ := Db.findMembership_some hfind
      refine ⟨_, _, rfl, mem_updateWhere.2 ⟨m, hm, ?_⟩, hmu, hmo, rfl⟩
      rw [if_pos (by simp [hmu, hmo])]
  | none =>
      have hfresh : ¬db.memberships.any (·.id == id.val) = true := by simpa using hid
      have hfk : ¬(!db.users.any (·.id == u.id) ||
          !db.organizations.any (·.id == organizationId)) = true := by
        have huser : db.users.any (·.id == u.id) = true :=
          List.any_eq_true.2 ⟨u, hu, beq_self_eq_true _⟩
        have horg : db.organizations.any (·.id == organizationId) = true := by simpa using ho
        simp [huser, horg]
      refine ⟨⟨id.val, u.id, organizationId, role, now⟩,
        db.insertMembership ⟨id.val, u.id, organizationId, role, now⟩, ?_,
        List.mem_append_right _ (List.mem_singleton_self _), rfl, rfl, rfl⟩
      simp only [if_neg hfresh, if_neg hfk]

/-- An address whose account is found is added. -/
theorem addsAccount_of_found (h : w.db.findUserByEmail (toLowerCase email) = some u) :
    AddsAccount env w email u := by
  have hu : u ∈ w.db.users := List.mem_of_find?_eq_some h
  refine ⟨h, fun organizationId actorId role g ho hid => ?_, fun organizationId actorId role g => ?_⟩
  · obtain ⟨m, db, hm, hmem, hmu, hmo, hmr⟩ :=
      Db.upsertMembership_of_user role.val (g.cuid 0) g.now hu ho hid
    rw [OrgsService.addMember, Service.query_bind, h]
    simp only [Service.exec_bind, hm, Service.record_bind]
    refine ⟨m, _, rfl, ?_, hmu, hmo, hmr⟩
    rw [(Aftermath.recorded (g.cuid 1) g.now { w with db := db }).memberships]
    exact hmem
  · rw [OrgsService.addMember, Service.query_bind, h]
    simp only [Service.exec_bind]
    cases hm : w.db.upsertMembership u.id organizationId role.val (g.cuid 0) g.now with
    | error e => rfl
    | ok r =>
        simp only [Service.record_bind]
        refine (Aftermath.recorded (g.cuid 1) g.now { w with db := r.2 }).invites.trans ?_
        rcases Db.upsertMembership_ok hm with hdb | ⟨hdb, _, _, _⟩
        · rw [hdb]
          rfl
        · rw [hdb]
          rfl

/-- **The condition is exact.** -/
theorem emailIdentity_iff_lowerCase (h : UniqueKey User.email w.db.users) :
    EmailIdentity env w ↔ LowerCaseEmails w.db := by
  constructor
  · intro hidentity u hu
    have hfound := (hidentity.resolves u.email u hu rfl).found
    exact ((h.find?_iff).1 hfound).2.symm
  · intro hlower
    refine ⟨?_, fun email u hu heq => addsAccount_of_found ?_⟩
    · rw [UniqueKey, List.map_congr_left hlower]
      exact h
    · rw [heq, hlower u hu]
      exact h.find?_iff.2 ⟨hu, rfl⟩

end Adding

/-- **An address names an account as long as accounts are registered in lower case.**  In every run
of the six operations from an empty installation: an address names at most one account without
regard to case, and `addMember` adds that account, if and only if every account's address is in
lower case; and so it is if every address given to `register` was. -/
theorem emailIdentity_iff {env : Env} {calls : List OrgCall} {w : World}
    (hrun : Run (OrgRun env) World.empty calls w) :
    (EmailIdentity env w ↔ LowerCaseEmails w.db) ∧
      ((∀ call ∈ calls, call.LowerCase) → EmailIdentity env w) := by
  have h : UniqueKey User.email w.db.users ∧
      ((∀ call ∈ calls, call.LowerCase) → LowerCaseEmails w.db) := by
    induction hrun with
    | nil => exact ⟨List.nodup_nil, fun _ u hu => by cases hu⟩
    | @snoc calls w w' call _ hlast ih =>
        obtain ⟨_, rfl⟩ := hlast
        obtain ⟨hunique, hlower⟩ := ih
        obtain ⟨hunique', hlower'⟩ := @OrgCall.exec_emails env _ call hunique
        refine ⟨hunique', fun hall => hlower' (hlower fun c hc => ?_) ?_⟩
        · exact hall c (List.mem_append_left _ hc)
        · exact hall call (List.mem_append_right _ (List.mem_singleton_self call))
  have hiff : EmailIdentity env w ↔ LowerCaseEmails w.db := emailIdentity_iff_lowerCase h.1
  exact ⟨hiff, fun hall => hiff.2 (h.2 hall)⟩

/-! ### Bob with and without a capital letter -/

namespace EmailIdentity.Samples

open OrgCall.Samples TokenService.Samples

def bobId : Cuid := Demo.firstId

/-- Bob registers. -/
def register (email : JsString) : OrgCall :=
  .register ⟨email, js "correct horse", js "Bob", none⟩ device ⟨0, fun _ => bobId, fun _ => js "t1"⟩

/-- After Ann, Bob registers with a capital letter. -/
def capital : List OrgCall := [signUp, register (js "Bob@demo.test")]

/-- Somebody registers without. -/
def another : OrgCall :=
  .register ⟨js "bob@demo.test", js "other horse", js "Rob", none⟩ device
    ⟨0, fun _ => Demo.projectId, fun _ => js "t2"⟩

def small : List OrgCall := [signUp, register (js "bob@demo.test")]

def play (calls : List OrgCall) : World := calls.foldl (fun w call => call.exec env w) World.empty

end EmailIdentity.Samples

open EmailIdentity.Samples TokenService.Samples in
theorem emailIdentity_iff_small : EmailIdentity env (play small) :=
  (emailIdentity_iff (Along.run (show Along _ _ World.empty small by decide))).1.2
    (by decide : ∀ u ∈ (play small).db.users, toLowerCase u.email = u.email)

open EmailIdentity.Samples TokenService.Samples in
/-- Bob's account is not found when he is added, he is sent an invite instead, and his address in
lower case is free for a second account. -/
theorem capital_not_found :
    Run (OrgRun env) World.empty capital (play capital) ∧
      ¬EmailIdentity env (play capital) ∧
      ((OrgCall.Samples.invite (js "Bob@demo.test")).exec env (play capital)).db.invites.map
        Invite.email = [js "bob@demo.test"] ∧
      Run (OrgRun env) World.empty (capital ++ [another]) (play (capital ++ [another])) ∧
      ¬UniqueKey (fun u : User => toLowerCase u.email) (play (capital ++ [another])).db.users := by
  refine ⟨Along.run (show Along _ _ World.empty capital by decide), fun h => ?_, by decide,
    Along.run (show Along _ _ World.empty (capital ++ [another]) by decide), by decide⟩
  have hlower : LowerCaseEmails (play capital).db :=
    (emailIdentity_iff_lowerCase (by decide)).1 h
  have hbob : ∃ u ∈ (play capital).db.users, toLowerCase u.email ≠ u.email := by decide
  obtain ⟨u, hu, hne⟩ := hbob
  exact hne (hlower u hu)

end PmSaas
