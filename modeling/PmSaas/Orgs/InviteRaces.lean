import PmSaas.Orgs.Removal

/-!
# Is an invite accepted once?

`acceptInvite` looks the invite up, checks that it is pending, and burns it in a later transaction
that does not check again.  Two requests with one token that have both passed the check both commit
(`accepted_twice`), and so does a late request whose invite was accepted and sent again meanwhile.

`redeemed_once`: in every run in which each transaction still finds the invite pending under the
token that it was looked up by, every token is redeemed at most once.
-/

namespace PmSaas

open Table JsString TransitionSystem OrgsService

namespace OrgTask

/-- The token a step generates, by its hash. -/
def issues (g : Gen) : OrgTask → List Sha256
  | .inviting _ _ _ _ => [hashToken (g.random 0)]
  | _ => []

/-- The token whose transaction a step commits, by its hash. -/
def redeems (g : Gen) (db : Db) : OrgTask → List Sha256
  | .accepting userId invite =>
      match acceptInviteTx userId invite g db with
      | .ok _ => [invite.tokenHash]
      | .error _ => []
  | _ => []

/-- If the step is an accepting transaction, the invite is still pending under its token. -/
def StillPending (db : Db) : OrgTask → Prop
  | .accepting _ invite =>
      ∃ i ∈ db.invites, i.id = invite.id ∧ i.tokenHash = invite.tokenHash ∧ i.acceptedAt = none
  | _ => True

instance StillPending.decidable (db : Db) : ∀ task, Decidable (StillPending db task)
  | .accepting _ invite =>
      inferInstanceAs (Decidable (∃ i ∈ db.invites,
        i.id = invite.id ∧ i.tokenHash = invite.tokenHash ∧ i.acceptedAt = none))
  | .start _ => isTrue trivial
  | .creatingUser _ _ => isTrue trivial
  | .slugging _ _ _ _ => isTrue trivial
  | .creatingOrg _ _ _ _ => isTrue trivial
  | .issuing _ _ => isTrue trivial
  | .upserting _ _ _ _ _ => isTrue trivial
  | .inviting _ _ _ _ => isTrue trivial
  | .mailing _ _ _ _ _ _ => isTrue trivial
  | .updating _ _ _ _ => isTrue trivial
  | .deleting _ _ _ _ => isTrue trivial
  | .auditing _ _ => isTrue trivial
  | .done _ => isTrue trivial

end OrgTask

/-- The requests, one for each `τ`, and what they have done with tokens; no step reads that. -/
structure Redemptions (τ : Type*) where
  pool : Pool τ OrgTask World
  /-- The hashes of the tokens there are or were. -/
  issued : List Sha256
  /-- The hashes of the tokens whose transactions have committed, in the order of the commits. -/
  redeemed : List Sha256

namespace Redemptions

variable {τ : Type*}

def next [DecidableEq τ] (env : Env) (s : Redemptions τ) (a : τ × Gen) : Redemptions τ where
  pool := s.pool.advance (OrgTask.step env a.2) a.1
  issued := s.issued ++ (s.pool.thread a.1).issues a.2
  redeemed := s.redeemed ++ (s.pool.thread a.1).redeems a.2 s.pool.store.db

/-- `randomBytes` does not repeat itself. -/
def Enabled (s : Redemptions τ) (a : τ × Gen) : Prop :=
  ∀ h ∈ (s.pool.thread a.1).issues a.2, h ∉ s.issued

instance (s : Redemptions τ) (a : τ × Gen) : Decidable (s.Enabled a) :=
  inferInstanceAs (Decidable (∀ h ∈ _, _))

/-- The condition on a step. -/
def StillPending (s : Redemptions τ) (a : τ × Gen) : Prop :=
  (s.pool.thread a.1).StillPending s.pool.store.db

instance (s : Redemptions τ) (a : τ × Gen) : Decidable (s.StillPending a) :=
  OrgTask.StillPending.decidable s.pool.store.db (s.pool.thread a.1)

end Redemptions

/-- The unique indexes of invites. -/
structure InviteTable (db : Db) : Prop where
  pairs : UniqueKey (fun i : Invite => (i.organizationId, i.email)) db.invites
  tokens : UniqueKey Invite.tokenHash db.invites

/-- Every request is still to begin. -/
structure RedemptionStart {τ : Type*} (s : Redemptions τ) : Prop where
  table : InviteTable s.pool.store.db
  tasks : ∀ t, ∃ request, s.pool.thread t = .start request
  issued : ∀ i ∈ s.pool.store.db.invites, i.tokenHash ∈ s.issued
  redeemed : s.redeemed = []

/-! ### What one step does to the invites -/

section Writes

variable {env : Env} {g : Gen} {db db' : Db} {w w' : World} {task task' : OrgTask}

namespace InviteTable

theorem congr (h : InviteTable db) (hsame : db'.invites = db.invites) : InviteTable db' := by
  constructor <;> rw [hsame]
  · exact h.pairs
  · exact h.tokens

/-- An upsert with a token that is new. -/
theorem upsertInvite (h : InviteTable db) {row invite : Invite}
    (hu : db.upsertInvite row = .ok (invite, db'))
    (hfresh : ∀ i ∈ db.invites, i.tokenHash ≠ row.tokenHash) : InviteTable db' := by
  unfold Db.upsertInvite at hu
  split at hu
  · split at hu
    · cases hu
    · cases hu
      refine ⟨h.pairs.update fun i _ hi => ?_, h.tokens.update_one (fun i hi j hj hpi hpj => ?_)
        fun i _ _ j hj _ => hfresh j hj⟩
      · simp only [Bool.and_eq_true, beq_iff_eq] at hi
        exact Prod.ext hi.1.symm hi.2.symm
      · simp only [Bool.and_eq_true, beq_iff_eq] at hpi hpj
        exact h.pairs.eq_of_key_eq hi hj
          (Prod.ext (hpi.1.trans hpj.1.symm) (hpi.2.trans hpj.2.symm))
  · rename_i hnone
    split_ifs at hu
    cases hu
    refine ⟨h.pairs.insert fun i hi heq => ?_, h.tokens.insert hfresh⟩
    have hno := List.find?_eq_none.1 hnone i hi
    simp only [Prod.mk.injEq] at heq
    simp [heq.1, heq.2] at hno

theorem burnInvite (h : InviteTable db) {id : JsString} {now : Date}
    (hb : db.burnInvite id now = .ok ((), db')) : InviteTable db' := by
  unfold Db.burnInvite at hb
  split at hb
  · cases hb
    exact ⟨h.pairs.update fun _ _ _ => rfl, h.tokens.update fun _ _ _ => rfl⟩
  · cases hb

end InviteTable

theorem upsertMembership_invites {userId organizationId : JsString} {role : Role} {id : Cuid}
    {now : Date} {m : Membership}
    (h : db.upsertMembership userId organizationId role id now = .ok (m, db')) :
    db'.invites = db.invites := by
  rcases Db.upsertMembership_ok h with rfl | ⟨rfl, _, _, _⟩ <;> rfl

/-- A step that neither generates nor redeems a token leaves the invites. -/
theorem OrgTask.Step.invites_eq (h : OrgTask.Step env g w task task' w')
    (hissue : ∀ organizationId actorId email role, task ≠ .inviting organizationId actorId email role)
    (hredeem : ∀ userId invite, task ≠ .accepting userId invite) :
    w'.db.invites = w.db.invites := by
  have hsame : w'.db.staffing = w.db.staffing → w'.db.invites = w.db.invites := by
    intro heq
    simp only [Db.staffing, Prod.mk.injEq] at heq
    exact heq.2.2.2
  cases h with
  | quiet | findUser | findNobody | findInvite | findMember | mail | update | delete => rfl
  | createUser hc =>
      obtain ⟨_, rfl, _⟩ := Db.createUser_ok hc
      rfl
  | createOrg hc =>
      obtain ⟨_, rfl, _⟩ := Db.createOrganization_ok hc
      rfl
  | issue user device answer => exact hsame (issueForUser_staffing ..)
  | upsert hu => exact upsertMembership_invites hu
  | invite _ => exact absurd rfl (hissue _ _ _ _)
  | accept _ _ => exact absurd rfl (hredeem _ _)
  | audit entry next => exact hsame (recorded_staffing ..)

end Writes

/-! ### Redeemed tokens are spent -/

namespace Redemptions

variable {τ : Type*}

/-- **The invariant.**  No pending invite has a token that was redeemed. -/
structure Spent (s : Redemptions τ) : Prop where
  table : InviteTable s.pool.store.db
  issued : ∀ i ∈ s.pool.store.db.invites, i.tokenHash ∈ s.issued
  known : ∀ h ∈ s.redeemed, h ∈ s.issued
  spent : ∀ i ∈ s.pool.store.db.invites, i.tokenHash ∈ s.redeemed → i.acceptedAt ≠ none
  once : s.redeemed.Nodup

theorem Spent.start {s : Redemptions τ} (h : RedemptionStart s) : s.Spent := by
  refine ⟨h.table, h.issued, fun x hx => ?_, fun i _ hi => ?_, ?_⟩
  · rw [h.redeemed] at hx
    cases hx
  · rw [h.redeemed] at hi
    cases hi
  · rw [h.redeemed]
    exact List.nodup_nil

variable {s s' : Redemptions τ}

/-- A step that leaves the invites and the tokens. -/
theorem Spent.congr (h : s.Spent) (hinvites : s'.pool.store.db.invites = s.pool.store.db.invites)
    (hissued : ∀ x ∈ s.issued, x ∈ s'.issued) (hredeemed : s'.redeemed = s.redeemed) :
    s'.Spent := by
  refine ⟨h.table.congr hinvites, fun i hi => ?_, fun x hx => ?_, ?_, ?_⟩
  · rw [hinvites] at hi
    exact hissued _ (h.issued i hi)
  · rw [hredeemed] at hx
    exact hissued x (h.known x hx)
  · rw [hinvites, hredeemed]
    exact h.spent
  · rw [hredeemed]
    exact h.once

/-- An invite is sent, with a new token. -/
theorem Spent.invite (h : s.Spent) {row invite : Invite} {db : Db}
    (hu : s.pool.store.db.upsertInvite row = .ok (invite, db)) (hdb : s'.pool.store.db = db)
    (hfresh : row.tokenHash ∉ s.issued) (hissued : s'.issued = s.issued ++ [row.tokenHash])
    (hredeemed : s'.redeemed = s.redeemed) : s'.Spent := by
  subst hdb
  have hnew : ∀ i ∈ s.pool.store.db.invites, i.tokenHash ≠ row.tokenHash :=
    fun i hi heq => hfresh (heq ▸ h.issued i hi)
  refine ⟨h.table.upsertInvite hu hnew, fun i hi => ?_, fun x hx => ?_, fun i hi hin => ?_, ?_⟩
  · rw [hissued]
    rcases Db.mem_upsertInvite hu hi with hold | ⟨id, createdAt, rfl⟩
    · exact List.mem_append_left _ (h.issued i hold)
    · exact List.mem_append_right _ (List.mem_singleton_self _)
  · rw [hissued]
    rw [hredeemed] at hx
    exact List.mem_append_left _ (h.known x hx)
  · rw [hredeemed] at hin
    rcases Db.mem_upsertInvite hu hi with hold | ⟨id, createdAt, rfl⟩
    · exact h.spent i hold hin
    · exact absurd (h.known _ hin) hfresh
  · rw [hredeemed]
    exact h.once

/-- **An invite that is still pending under its token is accepted.** -/
theorem Spent.accept (h : s.Spent) {invite : Invite} {now : Date} {db₁ db : Db}
    (hpending : ∃ i ∈ s.pool.store.db.invites,
      i.id = invite.id ∧ i.tokenHash = invite.tokenHash ∧ i.acceptedAt = none)
    (hsame : db₁.invites = s.pool.store.db.invites)
    (hb : db₁.burnInvite invite.id now = .ok ((), db)) (hdb : s'.pool.store.db = db)
    (hissued : s'.issued = s.issued) (hredeemed : s'.redeemed = s.redeemed ++ [invite.tokenHash]) :
    s'.Spent := by
  subst hdb
  obtain ⟨row, hrow, hid, hhash, hnone⟩ := hpending
  have hnew : invite.tokenHash ∉ s.redeemed :=
    fun hin => h.spent row hrow (by rw [hhash]; exact hin) hnone
  have hold : ∀ i ∈ s'.pool.store.db.invites, ∃ old ∈ s.pool.store.db.invites,
      (old.id ≠ invite.id ∧ i = old) ∨
        (old.id = invite.id ∧ i = { old with acceptedAt := some now }) := by
    intro i hi
    obtain ⟨old, hold, hcases⟩ := Db.mem_burnInvite hb hi
    exact ⟨old, hsame ▸ hold, hcases⟩
  refine ⟨(h.table.congr hsame).burnInvite hb, fun i hi => ?_, fun x hx => ?_, fun i hi hin => ?_,
    ?_⟩
  · rw [hissued]
    obtain ⟨old, hmem, ⟨_, rfl⟩ | ⟨_, rfl⟩⟩ := hold i hi
    · exact h.issued _ hmem
    · exact h.issued old hmem
  · rw [hissued]
    rw [hredeemed] at hx
    rcases List.mem_append.1 hx with hx | hx
    · exact h.known x hx
    · rw [List.mem_singleton.1 hx, ← hhash]
      exact h.issued row hrow
  · obtain ⟨old, hmem, ⟨hne, rfl⟩ | ⟨_, rfl⟩⟩ := hold i hi
    · rw [hredeemed] at hin
      rcases List.mem_append.1 hin with hin | hin
      · exact h.spent _ hmem hin
      · -- the token is the burnt invite's alone
        obtain rfl := h.table.tokens.eq_of_key_eq hmem hrow
          ((List.mem_singleton.1 hin).trans hhash.symm)
        exact absurd hid hne
    · exact Option.some_ne_none now
  · rw [hredeemed, List.nodup_append]
    refine ⟨h.once, List.nodup_singleton _, ?_⟩
    intro x hx y hy heq
    subst heq
    exact hnew (List.mem_singleton.1 hy ▸ hx)

/-- **Every step keeps redeemed tokens spent.** -/
theorem Spent.next [DecidableEq τ] {env : Env} {a : τ × Gen} (h : s.Spent) (henabled : s.Enabled a)
    (hpending : s.StillPending a) : (s.next env a).Spent := by
  obtain ⟨t, g⟩ := a
  have hstep : OrgTask.Step env g s.pool.store (s.pool.thread t)
      ((s.pool.thread t).step env g s.pool.store).1
      ((s.pool.thread t).step env g s.pool.store).2 := OrgTask.step_spec _
  simp only [Enabled] at henabled
  simp only [StillPending] at hpending
  have hstore : (s.next env (t, g)).pool.store =
      ((s.pool.thread t).step env g s.pool.store).2 := rfl
  have hissued : (s.next env (t, g)).issued = s.issued ++ (s.pool.thread t).issues g := rfl
  have hredeemed : (s.next env (t, g)).redeemed =
      s.redeemed ++ (s.pool.thread t).redeems g s.pool.store.db := rfl
  generalize s.next env (t, g) = s' at hstore hissued hredeemed ⊢
  generalize s.pool.thread t = task at hstep henabled hpending hstore hissued hredeemed
  have hkeep : ∀ x ∈ s.issued, x ∈ s'.issued := by
    intro x hx
    rw [hissued]
    exact List.mem_append_left _ hx
  cases task with
  | inviting organizationId actorId email role =>
      rw [OrgTask.step] at hstore
      have hnone : s'.redeemed = s.redeemed := hredeemed.trans (List.append_nil _)
      cases hu : s.pool.store.db.upsertInvite (newInvite organizationId actorId email role g) with
      | error e =>
          rw [hu] at hstore
          exact h.congr (by rw [hstore]; rfl) hkeep hnone
      | ok r =>
          rw [hu] at hstore
          exact h.invite hu (by rw [hstore]; rfl) (henabled _ (List.mem_singleton_self _)) hissued
            hnone
  | accepting userId invite =>
      rw [OrgTask.step] at hstore
      have hsame : s'.issued = s.issued := hissued.trans (List.append_nil _)
      cases ha : acceptInviteTx userId invite g s.pool.store.db with
      | error e =>
          rw [ha] at hstore
          simp only [OrgTask.redeems, ha, List.append_nil] at hredeemed
          exact h.congr (by rw [hstore]; rfl) hkeep hredeemed
      | ok r =>
          obtain ⟨db₁, hm, hb⟩ := acceptInviteTx_ok ha
          rw [ha] at hstore
          simp only [OrgTask.redeems, ha] at hredeemed
          exact h.accept hpending (upsertMembership_invites hm) hb (by rw [hstore]; rfl) hsame
            hredeemed
  | _ =>
      refine h.congr ?_ hkeep (hredeemed.trans (List.append_nil _))
      rw [hstore]
      exact hstep.invites_eq (fun _ _ _ _ h => by cases h) fun _ _ h => by cases h

end Redemptions

/-- **Each token is redeemed at most once** in every run of requests in which every accepting
transaction still finds its invite pending under the token it was looked up by. -/
theorem redeemed_once {τ : Type*} [DecidableEq τ] {env : Env} {s₀ s : Redemptions τ}
    {as : List (τ × Gen)} (h₀ : RedemptionStart s₀)
    (hrun : Run (Guarded (Steps Redemptions.Enabled (Redemptions.next env))
      Redemptions.StillPending) s₀ as s) : s.redeemed.Nodup := by
  have h : s.Spent := by
    refine hrun.invariant (P := Redemptions.Spent) ?_ (.start h₀)
    intro s a s' hs hstep
    obtain ⟨⟨henabled, rfl⟩, hpending⟩ := hstep
    exact hs.next henabled hpending
  exact h.once

/-! ### Bob presses the button twice -/

namespace InviteRaces.Samples

open Removal.Samples

/-- Bob, who has registered with a capital letter. -/
def bobUser : User := { Demo.user with id := bobId.val, email := js "Bob@demo.test" }

/-- Ann invites Bob, and he accepts the invite in two requests. -/
def request (t : ℕ) : OrgRequest :=
  if t = 0 then addBob else .acceptInvite bobId.val bobUser.email (js "i0")

def start : Redemptions ℕ where
  pool :=
    { store := { Removal.Samples.world with
        db := { Removal.Samples.world.db with users := [Demo.user, bobUser] } }
      thread := fun t => .start (request t) }
  issued := []
  redeemed := []

theorem start_ok : RedemptionStart start where
  table := ⟨by decide, by decide⟩
  tasks t := ⟨_, rfl⟩
  issued := by decide
  redeemed := rfl

def invited : List (ℕ × Gen) := List.replicate 2 (0, gen Demo.firstId)

abbrev turn (t : ℕ) : ℕ × Gen := (t, gen Demo.secondId)

/-- The second request comes when the first is through. -/
def oneByOne : List (ℕ × Gen) := invited ++ [turn 1, turn 1, turn 2, turn 2]

/-- Both requests pass the check before either transaction. -/
def together : List (ℕ × Gen) := invited ++ [turn 1, turn 2, turn 1, turn 2]

def play (as : List (ℕ × Gen)) : Redemptions ℕ :=
  as.foldl (Redemptions.next TokenService.Samples.env) start

end InviteRaces.Samples

open InviteRaces.Samples TokenService.Samples in
theorem redeemed_once_oneByOne : (play oneByOne).redeemed.Nodup :=
  redeemed_once start_ok
    (Along.guarded (show Along _ (Redemptions.next env) start oneByOne by decide))

open InviteRaces.Samples TokenService.Samples in
/-- Two requests that look the invite up before either accepts it both accept it. -/
theorem accepted_twice :
    RedemptionStart start ∧
      Run (Steps Redemptions.Enabled (Redemptions.next env)) start together (play together) ∧
      (play together).issued = [hashToken (js "i0")] ∧
      (play together).redeemed = [hashToken (js "i0"), hashToken (js "i0")] :=
  ⟨start_ok, Along.run (show Along _ (Redemptions.next env) start together by decide), by decide,
    by decide⟩

end PmSaas
