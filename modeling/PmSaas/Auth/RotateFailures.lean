import PmSaas.Auth.TokenService

/-!
# `rotate` when one of its Prisma calls fails

`rotate` revokes the presented token and inserts its successor in two statements without a
transaction.  `after` lists the states a call passes through, one for each Prisma call; a call whose
`k`-th statement fails stops in the `k`-th of them.

`rotate_failure_iff`: the failure leaves the tokens as they were, and the presented one usable,
exactly when it is not the insertion of the successor of a usable token that fails.
-/

namespace PmSaas

open Table

namespace TokenService

/-- A call after its first `k` Prisma calls; the `k`-th of them draws from `gs k`. -/
def after (env : Env) (gs : ℕ → Gen) (request : Request) (db : Db) : ℕ → Pc × Db
  | 0 => (.start request, db)
  | k + 1 => step env (gs k) (after env gs request db k).1 (after env gs request db k).2

/-- No Prisma call is left. -/
def Pc.finished : Pc → Bool
  | .done _ => true
  | _ => false

/-- The call alone, with its `k`-th Prisma call failing: the statement writes nothing, and its
exception leaves the method. -/
def execFailing (env : Env) (gs : ℕ → Gen) (request : Request) (k : ℕ) (e : Exn) (db : Db) :
    Except Exn (Option IssuedTokens) × Db :=
  if (after env gs request db k).1.finished then exec env gs request db
  else (.error e, (after env gs request db k).2)

/-- The token is stored, neither revoked nor expired. -/
def Usable (db : Db) (presentedToken : JsString) (now : Date) : Prop :=
  ∃ existing user, db.findRefreshTokenWithUser (hash presentedToken) = some (existing, user) ∧
    existing.revokedAt = none ∧ ¬existing.expiresAt < now

/-- If the `k`-th Prisma call of `rotate` is made and fails, the tokens are as before, and `rotate`
accepts the token as long as it would have accepted it before. -/
def FailsSafely (env : Env) (gs : ℕ → Gen) (presentedToken : JsString) (device : DeviceInfo) (k : ℕ)
    (e : Exn) (db : Db) : Prop :=
  (after env gs (.rotate presentedToken device) db k).1.finished = false →
    (execFailing env gs (.rotate presentedToken device) k e db).2.refreshTokens =
      db.refreshTokens ∧
    ∀ (gs' : ℕ → Gen) (device' : DeviceInfo), Usable db presentedToken (gs' 0).now →
      Fresh (gs' 2) db → ∃ tokens,
      (exec env gs' (.rotate presentedToken device')
        (execFailing env gs (.rotate presentedToken device) k e db).2).1 = .ok (some tokens)

section Rotate

variable {env : Env} {gs : ℕ → Gen} {presentedToken : JsString} {device : DeviceInfo} {db : Db}

theorem exec_eq (request : Request) :
    exec env gs request db =
      ((after env gs request db 3).1.answer, (after env gs request db 3).2) := rfl

theorem execFailing_of_made {request : Request} {k : ℕ} (e : Exn)
    (h : (after env gs request db k).1.finished = false) :
    execFailing env gs request k e db = (.error e, (after env gs request db k).2) := by
  rw [execFailing, h]
  rfl

/-- A usable token passes the check. -/
theorem after_one_usable {existing : RefreshToken} {user : AuthUser}
    (hfound : db.findRefreshTokenWithUser (hash presentedToken) = some (existing, user))
    (hunrevoked : existing.revokedAt = none) (hunexpired : ¬existing.expiresAt < (gs 0).now) :
    after env gs (.rotate presentedToken device) db 1 = (.consuming existing user device, db) := by
  simp [after, step, hfound, hunrevoked, hunexpired]

/-- The second call revokes it. -/
theorem after_two_usable {existing : RefreshToken} {user : AuthUser}
    (hfound : db.findRefreshTokenWithUser (hash presentedToken) = some (existing, user))
    (hunrevoked : existing.revokedAt = none) (hunexpired : ¬existing.expiresAt < (gs 0).now) :
    after env gs (.rotate presentedToken device) db 2 =
      (.creating user existing.familyId device, db.markRevoked existing.id (gs 1).now) := by
  have hpresent : db.refreshTokens.any (·.id == existing.id) = true :=
    List.any_eq_true.2 ⟨existing, (Db.mem_of_findRefreshTokenWithUser hfound).1, by simp⟩
  rw [after, after_one_usable hfound hunrevoked hunexpired]
  simp only [step, Db.revokeToken, hpresent, if_true]

/-- Any other token is refused after at most two calls. -/
theorem after_two_unusable (h : ¬Usable db presentedToken (gs 0).now) :
    (after env gs (.rotate presentedToken device) db 2).1.finished = true := by
  simp only [after, step]
  cases hfound : db.findRefreshTokenWithUser (hash presentedToken) with
  | none => rfl
  | some found =>
      obtain ⟨existing, user⟩ := found
      have hreused : (existing.revokedAt.isSome || existing.expiresAt < (gs 0).now) = true := by
        by_contra hno
        simp only [Bool.or_eq_true, not_or, decide_eq_true_eq, Option.not_isSome_iff_eq_none] at hno
        exact h ⟨existing, user, hfound, hno.1, hno.2⟩
      simp only [hreused, if_true]
      rfl

theorem finished_mono {request : Request} {j k : ℕ} (hjk : j ≤ k)
    (h : (after env gs request db j).1.finished = true) :
    (after env gs request db k).1.finished = true := by
  induction hjk with
  | refl => exact h
  | @step k _ ih =>
      cases hpc : (after env gs request db k).1 with
      | done answer => rw [after, hpc]; rfl
      | _ => rw [hpc] at ih; cases ih

/-- No call is left after three. -/
theorem after_three_finished :
    (after env gs (.rotate presentedToken device) db 3).1.finished = true := by
  by_cases h : Usable db presentedToken (gs 0).now
  · obtain ⟨existing, user, hfound, hunrevoked, hunexpired⟩ := h
    rw [after, after_two_usable hfound hunrevoked hunexpired, step, createRefresh]
    split <;> rfl
  · exact finished_mono (by omega) (after_two_unusable h)

/-- The first two calls of a `rotate` fail before anything is written. -/
theorem after_one_db : (after env gs (.rotate presentedToken device) db 1).2 = db := by
  simp only [after, step]
  split
  · rfl
  · split <;> rfl

/-- **A usable token rotates** when the generated values are new. -/
theorem exec_usable (h : Usable db presentedToken (gs 0).now) (hfresh : Fresh (gs 2) db) :
    ∃ tokens, (exec env gs (.rotate presentedToken device) db).1 = .ok (some tokens) := by
  obtain ⟨existing, user, hfound, hunrevoked, hunexpired⟩ := h
  have howner : (db.markRevoked existing.id (gs 1).now).users.any (·.id == user.sub) = true := by
    obtain ⟨t, -, hmap⟩ := Option.bind_eq_some_iff.1 hfound
    obtain ⟨u, hu, heq⟩ := Option.map_eq_some_iff.1 hmap
    cases heq
    exact List.any_eq_true.2 ⟨u, List.mem_of_find?_eq_some hu, by simp⟩
  have hfresh' : Fresh (gs 2) (db.markRevoked existing.id (gs 1).now) := by
    intro t ht
    obtain ⟨t', ht', rfl⟩ := mem_updateWhere.1 ht
    have hne := hfresh t' ht'
    split <;> exact hne
  refine ⟨issued env (gs 2) user, ?_⟩
  rw [exec_eq, after, after_two_usable hfound hunrevoked hunexpired]
  simp only [step]
  rw [createRefresh_fresh user existing.familyId device hfresh', if_pos howner]
  rfl

/-- Revoking a token that is not revoked changes the table. -/
theorem markRevoked_ne {existing : RefreshToken} (hmem : existing ∈ db.refreshTokens)
    (hunrevoked : existing.revokedAt = none) (now : Date) :
    (db.markRevoked existing.id now).refreshTokens ≠ db.refreshTokens := by
  intro heq
  have hsame := updateWhere_eq_self_iff.1 heq existing hmem (by simp)
  have hrevoked := congrArg RefreshToken.revokedAt hsame
  rw [hunrevoked] at hrevoked
  cases hrevoked

end Rotate

end TokenService

open TokenService

/-- **A failing `rotate`.**  Whichever Prisma call fails, the refresh tokens are as before and the
presented one can be rotated again, exactly when the failing call is not the insertion of the
successor: by then the presented token is revoked, and presenting it again is taken for reuse. -/
theorem rotate_failure_iff (env : Env) (gs : ℕ → Gen) (presentedToken : JsString)
    (device : DeviceInfo) (k : ℕ) (e : Exn) (db : Db) :
    FailsSafely env gs presentedToken device k e db ↔
      ¬(k = 2 ∧ Usable db presentedToken (gs 0).now) := by
  constructor
  · intro hsafe hinsert
    obtain ⟨rfl, existing, user, hfound, hunrevoked, hunexpired⟩ := hinsert
    have htwo : after env gs (.rotate presentedToken device) db 2 =
        (.creating user existing.familyId device, db.markRevoked existing.id (gs 1).now) :=
      after_two_usable hfound hunrevoked hunexpired
    have hmade : (after env gs (.rotate presentedToken device) db 2).1.finished = false := by
      rw [htwo]
      rfl
    obtain ⟨htable, -⟩ := hsafe hmade
    rw [execFailing_of_made e hmade, htwo] at htable
    exact markRevoked_ne (Db.mem_of_findRefreshTokenWithUser hfound).1 hunrevoked _ htable
  · intro hinsert hmade
    have hdb : (after env gs (.rotate presentedToken device) db k).2 = db := by
      match k with
      | 0 => rfl
      | 1 => exact after_one_db
      | 2 =>
          have hdone : (after env gs (.rotate presentedToken device) db 2).1.finished = true :=
            after_two_unusable fun husable => hinsert ⟨rfl, husable⟩
          rw [hmade] at hdone
          cases hdone
      | k + 3 =>
          have hdone : (after env gs (.rotate presentedToken device) db (k + 3)).1.finished = true :=
            finished_mono (by omega) after_three_finished
          rw [hmade] at hdone
          cases hdone
    rw [execFailing_of_made e hmade, hdb]
    exact ⟨rfl, fun gs' device' husable hfresh => exec_usable husable hfresh⟩

namespace RotateFailures.Samples

open TokenService.Samples

/-- One usable token. -/
def db : Db :=
  { Demo.world.db with refreshTokens := [newToken env first user (js "f") device] }

end RotateFailures.Samples

open RotateFailures.Samples TokenService.Samples in
/-- The insertion fails: the token is revoked, and there is no successor. -/
theorem rotate_insert_failure :
    ¬ ∀ (env : Env) (gs : ℕ → Gen) (presentedToken : JsString) (device : DeviceInfo) (k : ℕ)
      (e : Exn) (db : Db), FailsSafely env gs presentedToken device k e db := by
  intro hall
  obtain ⟨htable, -⟩ := hall env (fun _ => second) (js "t0") device 2
    (.error (js "Can't reach database server")) RotateFailures.Samples.db (by decide)
  exact absurd htable (by decide)

end PmSaas
