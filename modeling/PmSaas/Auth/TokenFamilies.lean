import PmSaas.Auth.TokenService
import PmSaas.Lib.TransitionSystem

/-!
# Token families: what the history of calls says about a token

Called one at a time, the token service implements a simple rule.  The calls and their answers
alone tell which tokens were issued in which family, newest first, and which families are closed —
a logout presented one of their tokens or a rotation of one was turned away (`recordCall`).  A
rotation succeeds exactly for the newest token of an open family that has not expired
(`rotate_iff_accepts`), and otherwise it closes the family for good.

`Represents` ties the `refresh_tokens` rows to that history.
-/

namespace PmSaas

open Table TransitionSystem

namespace TokenService

/-! ### The history -/

/-- A token as its client knows it. -/
structure Issued where
  token : JsString
  expiresAt : Date
  deriving DecidableEq, Repr

structure Family where
  id : JsString
  /-- Newest first. -/
  tokens : List Issued
  closed : Bool
  deriving DecidableEq, Repr

/-- Is `t` a token of the family? -/
def Family.holds (t : JsString) (F : Family) : Bool := F.tokens.any (·.token == t)

def Family.extend (tokens : IssuedTokens) (F : Family) : Family :=
  { F with tokens := ⟨tokens.refreshToken, tokens.refreshExpiresAt⟩ :: F.tokens }

def Family.close (F : Family) : Family := { F with closed := true }

/-- What a call and its answer add to the history. -/
def recordCall (families : List Family) (gs : ℕ → Gen) :
    Request → Except Exn (Option IssuedTokens) → List Family
  | .issueForUser _ _, .ok (some tokens) =>
      families ++
        [⟨nanoid (gs 0), [⟨tokens.refreshToken, tokens.refreshExpiresAt⟩], false⟩]
  | .rotate t _, .ok (some tokens) => updateWhere (·.holds t) (Family.extend tokens) families
  | .rotate t _, .error _ => updateWhere (·.holds t) Family.close families
  | .revoke t, _ => updateWhere (·.holds t) Family.close families
  | _, _ => families

/-- `t` is the newest token of its family and unexpired, and the family is open. -/
def Accepts (families : List Family) (t : JsString) (now : Date) : Prop :=
  ∃ F ∈ families, F.closed = false ∧
    ∃ issued ∈ F.tokens.head?, issued.token = t ∧ ¬issued.expiresAt < now

/-- A call that runs alone, beside the record of it. -/
def CallStep (env : Env) (s : Db × List Family) (call : (ℕ → Gen) × Request)
    (s' : Db × List Family) : Prop :=
  (∀ k, Fresh (call.1 k) s.1) ∧ s'.1 = (exec env call.1 call.2 s.1).2 ∧
    s'.2 = recordCall s.2 call.1 call.2 (exec env call.1 call.2 s.1).1

/-! ### Calls that run alone -/

section Exec

variable {env : Env} {gs : ℕ → Gen} {db : Db}

/-- The rows keep what they are found by. -/
theorem mem_markRevoked {id : JsString} {now : Date} {r : RefreshToken}
    (hr : r ∈ (db.markRevoked id now).refreshTokens) :
    ∃ r₀ ∈ db.refreshTokens, r.id = r₀.id ∧ r.tokenHash = r₀.tokenHash ∧
      r.userId = r₀.userId ∧ r.familyId = r₀.familyId := by
  obtain ⟨r₀, hr₀, rfl⟩ := mem_updateWhere.1 hr
  refine ⟨r₀, hr₀, ?_⟩
  split <;> exact ⟨rfl, rfl, rfl, rfl⟩

theorem Fresh.markRevoked {g : Gen} (h : Fresh g db) (id : JsString) (now : Date) :
    Fresh g (db.markRevoked id now) := by
  intro t ht
  obtain ⟨t₀, ht₀, hid, hhash, -, hfam⟩ := mem_markRevoked ht
  rw [hid, hhash, hfam]
  exact h t₀ ht₀

theorem exec_issueForUser (user : AuthUser) (device : DeviceInfo) (hfresh : Fresh (gs 0) db) :
    exec env gs (.issueForUser user device) db =
      if db.users.any (·.id == user.sub) then
        (.ok (some (issued env (gs 0) user)),
          db.insertRefreshToken (newToken env (gs 0) user (nanoid (gs 0)) device))
      else (.error (.prisma .foreignKey), db) := by
  rw [exec, step, createRefresh_fresh user _ device hfresh]
  cases db.users.any (·.id == user.sub) <;> rfl

theorem exec_rotate_unknown {t : JsString} (device : DeviceInfo)
    (h : db.findRefreshTokenWithUser (hash t) = none) :
    exec env gs (.rotate t device) db =
      (.error (.unauthorized (js "Invalid refresh token")), db) := by
  simp only [exec, step, h, Pc.answer]

theorem exec_rotate_reused {t : JsString} (device : DeviceInfo) {existing : RefreshToken}
    {user : AuthUser} (h : db.findRefreshTokenWithUser (hash t) = some (existing, user))
    (hreused : existing.revokedAt.isSome || existing.expiresAt < (gs 0).now) :
    exec env gs (.rotate t device) db =
      (.error (.unauthorized (js "Refresh token expired or reused")),
        db.revokeFamily existing.familyId (gs 1).now) := by
  simp only [exec, step, h, hreused, if_true, Pc.answer]

theorem exec_rotate_ok {t : JsString} (device : DeviceInfo) {existing : RefreshToken}
    {user : AuthUser} (h : db.findRefreshTokenWithUser (hash t) = some (existing, user))
    (hlive : ¬(existing.revokedAt.isSome || existing.expiresAt < (gs 0).now))
    (hfresh : Fresh (gs 2) db) :
    exec env gs (.rotate t device) db =
      (.ok (some (issued env (gs 2) user)),
        (db.markRevoked existing.id (gs 1).now).insertRefreshToken
          (newToken env (gs 2) user existing.familyId device)) := by
  obtain ⟨t₀, ht₀, hmap⟩ := Option.bind_eq_some_iff.1 h
  obtain ⟨u, hu, huser⟩ := Option.map_eq_some_iff.1 hmap
  cases huser
  have hpresent : (db.refreshTokens.any (·.id == existing.id)) = true :=
    List.any_eq_true.2 ⟨existing, List.mem_of_find?_eq_some ht₀, by simp⟩
  have howner : ((db.markRevoked existing.id (gs 1).now).users.any (·.id == u.id)) = true :=
    List.any_eq_true.2 ⟨u, List.mem_of_find?_eq_some hu, by simp⟩
  simp only [exec, step, h, if_neg hlive, Db.revokeToken, hpresent, if_true,
    createRefresh_fresh _ _ device (hfresh.markRevoked _ _), howner, Pc.answer]

theorem exec_revoke_unknown {t : JsString} (h : db.findRefreshToken (hash t) = none) :
    exec env gs (.revoke t) db = (.ok none, db) := by
  simp only [exec, step, h, Pc.answer]

theorem exec_revoke {t : JsString} {existing : RefreshToken}
    (h : db.findRefreshToken (hash t) = some existing) :
    exec env gs (.revoke t) db = (.ok none, db.revokeFamily existing.familyId (gs 1).now) := by
  simp only [exec, step, h, Pc.answer]

end Exec

/-! ### Rows represent the history -/

def toIssued (r : RefreshToken) : Issued := ⟨r.tokenHash.preimage, r.expiresAt⟩

/-- The rows of one family, in the order they were inserted. -/
def familyRows (familyId : JsString) (db : Db) : List RefreshToken :=
  db.refreshTokens.filter (·.familyId == familyId)

structure Represents (s : Db × List Family) : Prop where
  familyIds : UniqueKey Family.id s.2
  tokenIds : UniqueKey RefreshToken.id s.1.refreshTokens
  hashes : UniqueKey RefreshToken.tokenHash s.1.refreshTokens
  owned : ∀ r ∈ s.1.refreshTokens, ∃ u ∈ s.1.users, u.id = r.userId
  family : ∀ r ∈ s.1.refreshTokens, ∃ F ∈ s.2, F.id = r.familyId
  nonempty : ∀ F ∈ s.2, F.tokens ≠ []
  tokens : ∀ F ∈ s.2, F.tokens = ((familyRows F.id s.1).map toIssued).reverse
  live : ∀ F ∈ s.2, ∀ r ∈ familyRows F.id s.1,
    (r.revokedAt = none ↔ F.closed = false ∧ F.tokens.head? = some (toIssued r))

namespace Represents

variable {db : Db} {families : List Family}

theorem mem_familyRows {familyId : JsString} {r : RefreshToken} :
    r ∈ familyRows familyId db ↔ r ∈ db.refreshTokens ∧ r.familyId = familyId := by
  simp [familyRows]

/-- A family holds a token when it has the row of it. -/
theorem holds_iff (h : Represents (db, families)) {F : Family} (hF : F ∈ families)
    {t : JsString} :
    F.holds t = true ↔ ∃ r ∈ db.refreshTokens, r.familyId = F.id ∧ r.tokenHash = hash t := by
  have htokens : F.tokens = ((familyRows F.id db).map toIssued).reverse := h.tokens F hF
  rw [Family.holds, htokens, List.any_reverse, List.any_map, List.any_eq_true]
  constructor
  · rintro ⟨r, hr, heq⟩
    obtain ⟨hmem, hfam⟩ := mem_familyRows.1 hr
    refine ⟨r, hmem, hfam, ?_⟩
    rw [hash, ← beq_iff_eq.1 heq]
    rfl
  · rintro ⟨r, hmem, hfam, hhash⟩
    refine ⟨r, mem_familyRows.2 ⟨hmem, hfam⟩, ?_⟩
    simp [toIssued, hhash, hash]

/-- A known token is held by its own family alone. -/
theorem holds_iff_id (h : Represents (db, families)) {F : Family} (hF : F ∈ families)
    {t : JsString} {existing : RefreshToken} (hmem : existing ∈ db.refreshTokens)
    (hhash : existing.tokenHash = hash t) : F.holds t = true ↔ F.id = existing.familyId := by
  rw [h.holds_iff hF]
  constructor
  · rintro ⟨r, hr, hfam, hr'⟩
    rw [← hfam, h.hashes.eq_of_key_eq hr hmem (hr'.trans hhash.symm)]
  · intro hid
    exact ⟨existing, hmem, hid.symm, hhash⟩

/-- Two families that hold one token are the same. -/
theorem eq_of_holds (h : Represents (db, families)) {F G : Family} (hF : F ∈ families)
    (hG : G ∈ families) {t : JsString} (hFt : F.holds t = true) (hGt : G.holds t = true) :
    F = G := by
  obtain ⟨r, hr, hfam, hhash⟩ := (h.holds_iff hF).1 hFt
  refine h.familyIds.eq_of_key_eq hF hG ?_
  rw [← hfam, (h.holds_iff_id hG hr hhash).1 hGt]

/-! ### Each call keeps the representation -/

theorem familyRows_insert (familyId : JsString) (row : RefreshToken) :
    familyRows familyId (db.insertRefreshToken row) =
      familyRows familyId db ++ if row.familyId = familyId then [row] else [] := by
  by_cases hf : row.familyId = familyId
  · simp [familyRows, Db.insertRefreshToken, hf]
  · simp [familyRows, Db.insertRefreshToken, hf]

theorem familyRows_revoke (familyId : JsString) (p : RefreshToken → Bool) (now : Date) :
    familyRows familyId
        { db with refreshTokens := updateWhere p (RefreshToken.revoke now) db.refreshTokens } =
      updateWhere p (RefreshToken.revoke now) (familyRows familyId db) :=
  filter_updateWhere_comm fun _ _ _ => rfl

theorem map_toIssued_revoke (p : RefreshToken → Bool) (now : Date) (ts : List RefreshToken) :
    (updateWhere p (RefreshToken.revoke now) ts).map toIssued = ts.map toIssued :=
  map_updateWhere fun _ _ _ => rfl

/-- A family has a row. -/
theorem exists_row (h : Represents (db, families)) {F : Family} (hF : F ∈ families) :
    ∃ r ∈ db.refreshTokens, r.familyId = F.id := by
  have htokens : F.tokens = ((familyRows F.id db).map toIssued).reverse := h.tokens F hF
  have hne := h.nonempty F hF
  rw [htokens] at hne
  obtain ⟨r, hr⟩ := List.exists_mem_of_ne_nil (familyRows F.id db) (by simpa using hne)
  exact ⟨r, mem_familyRows.1 hr⟩

/-- A first token starts an open family. -/
theorem start (h : Represents (db, families)) (row : RefreshToken)
    (hfresh : ∀ r ∈ db.refreshTokens,
      r.id ≠ row.id ∧ r.tokenHash ≠ row.tokenHash ∧ r.familyId ≠ row.familyId)
    (howner : ∃ u ∈ db.users, u.id = row.userId) (hlive : row.revokedAt = none) :
    Represents (db.insertRefreshToken row,
      families ++ [⟨row.familyId, [toIssued row], false⟩]) := by
  have hne : ∀ F ∈ families, F.id ≠ row.familyId := by
    intro F hF hid
    obtain ⟨r, hr, hfam⟩ := h.exists_row hF
    exact (hfresh r hr).2.2 (hfam.trans hid)
  have hold : ∀ F ∈ families, familyRows F.id (db.insertRefreshToken row) = familyRows F.id db := by
    intro F hF
    rw [familyRows_insert, if_neg (hne F hF).symm, List.append_nil]
  have hnew : familyRows row.familyId (db.insertRefreshToken row) = [row] := by
    have hnil : familyRows row.familyId db = [] :=
      List.filter_eq_nil_iff.2 fun r hr => by simpa using (hfresh r hr).2.2
    rw [familyRows_insert, hnil, if_pos rfl, List.nil_append]
  have hmem : ∀ F, F ∈ families ++ [⟨row.familyId, [toIssued row], false⟩] →
      F ∈ families ∨ F = ⟨row.familyId, [toIssued row], false⟩ := fun F hF => by simpa using hF
  refine ⟨h.familyIds.insert hne, h.tokenIds.insert fun r hr => (hfresh r hr).1,
    h.hashes.insert fun r hr => (hfresh r hr).2.1, ?_, ?_, ?_, ?_, ?_⟩
  · intro r hr
    rcases List.mem_append.1 hr with hr | hr
    · exact h.owned r hr
    · rw [List.mem_singleton.1 hr]
      exact howner
  · intro r hr
    rcases List.mem_append.1 hr with hr | hr
    · obtain ⟨F, hF, hid⟩ := h.family r hr
      exact ⟨F, List.mem_append_left _ hF, hid⟩
    · rw [List.mem_singleton.1 hr]
      exact ⟨_, List.mem_append_right _ (List.mem_singleton_self _), rfl⟩
  · intro F hF
    rcases hmem F hF with hF | rfl
    · exact h.nonempty F hF
    · simp
  · intro F hF
    rcases hmem F hF with hF | rfl
    · exact hold F hF ▸ h.tokens F hF
    · simp [hnew]
  · intro F hF r hr
    rcases hmem F hF with hF | rfl
    · exact h.live F hF r (hold F hF ▸ hr)
    · obtain rfl : r = row := by simpa [hnew] using hr
      simp [hlive]

/-- Revoking a family closes it. -/
theorem close (h : Represents (db, families)) (familyId : JsString) (now : Date) :
    Represents (db.revokeFamily familyId now,
      updateWhere (·.id == familyId) Family.close families) := by
  refine ⟨h.familyIds.update fun _ _ _ => rfl, h.tokenIds.update fun _ _ _ => rfl,
    h.hashes.update fun _ _ _ => rfl, ?_, ?_, ?_, ?_, ?_⟩
  · intro r hr
    obtain ⟨r₀, hr₀, rfl⟩ := mem_updateWhere.1 hr
    have howner := h.owned r₀ hr₀
    split <;> exact howner
  · intro r hr
    obtain ⟨r₀, hr₀, rfl⟩ := mem_updateWhere.1 hr
    obtain ⟨F, hF, hid⟩ := h.family r₀ hr₀
    refine ⟨_, mem_updateWhere.2 ⟨F, hF, rfl⟩, ?_⟩
    split <;> split <;> exact hid
  · intro F hF
    obtain ⟨F₀, hF₀, rfl⟩ := mem_updateWhere.1 hF
    have hne := h.nonempty F₀ hF₀
    split <;> exact hne
  · intro F hF
    obtain ⟨F₀, hF₀, rfl⟩ := mem_updateWhere.1 hF
    have htokens : F₀.tokens =
        ((familyRows F₀.id (db.revokeFamily familyId now)).map toIssued).reverse := by
      rw [Db.revokeFamily, familyRows_revoke, map_toIssued_revoke]
      exact h.tokens F₀ hF₀
    split <;> exact htokens
  · intro F hF r hr
    obtain ⟨F₀, hF₀, rfl⟩ := mem_updateWhere.1 hF
    by_cases hid : F₀.id = familyId
    · subst hid
      simp only [beq_self_eq_true, if_true, Family.close, Bool.true_eq_false, false_and,
        iff_false] at hr ⊢
      rw [Db.revokeFamily, familyRows_revoke, mem_updateWhere] at hr
      obtain ⟨r₀, hr₀, rfl⟩ := hr
      by_cases hnone : r₀.revokedAt = none
      · simp [(mem_familyRows.1 hr₀).2, hnone, RefreshToken.revoke]
      · simp [hnone]
    · have hno : (F₀.id == familyId) = false := by simpa using hid
      simp only [hno, Bool.false_eq_true, if_false] at hr ⊢
      rw [Db.revokeFamily, familyRows_revoke, mem_updateWhere] at hr
      obtain ⟨r₀, hr₀, rfl⟩ := hr
      have hfam := (mem_familyRows.1 hr₀).2
      simp only [hfam, hno, Bool.false_and, Bool.false_eq_true, if_false]
      exact h.live F₀ hF₀ r₀ hr₀

theorem hash_eq_of_toIssued {r r' : RefreshToken} (h : toIssued r = toIssued r') :
    r.tokenHash = r'.tokenHash := by
  cases r with
  | mk _ _ tokenHash _ _ _ _ _ _ =>
      cases tokenHash
      simp only [toIssued, Issued.mk.injEq] at h
      exact congrArg Sha256.mk h.1

/-- The other rows of a family are revoked. -/
theorem revoked_of_ne (h : Represents (db, families)) {existing r : RefreshToken}
    (hmem : existing ∈ db.refreshTokens) (hlive : existing.revokedAt = none)
    (hr : r ∈ db.refreshTokens) (hfam : r.familyId = existing.familyId) (hne : r ≠ existing) :
    r.revokedAt ≠ none := by
  intro hnone
  obtain ⟨F, hF, hid⟩ := h.family existing hmem
  have hhead := ((h.live F hF existing (mem_familyRows.2 ⟨hmem, hid.symm⟩)).1 hlive).2
  have hhead' := ((h.live F hF r (mem_familyRows.2 ⟨hr, hfam.trans hid.symm⟩)).1 hnone).2
  rw [hhead, Option.some.injEq] at hhead'
  exact hne (h.hashes.eq_of_key_eq hr hmem (hash_eq_of_toIssued hhead').symm)

theorem familyRows_extend {existing row : RefreshToken} (hfam : row.familyId = existing.familyId)
    (now : Date) (f : JsString) :
    familyRows f ((db.markRevoked existing.id now).insertRefreshToken row) =
      updateWhere (·.id == existing.id) (RefreshToken.revoke now) (familyRows f db) ++
        if existing.familyId = f then [row] else [] := by
  rw [familyRows_insert, Db.markRevoked, familyRows_revoke, hfam]

/-- In the family that is extended the new row alone is live. -/
theorem live_extended (h : Represents (db, families)) {existing row r : RefreshToken}
    (hmem : existing ∈ db.refreshTokens) (hlive : existing.revokedAt = none) {now : Date}
    (hrow : row.revokedAt = none) (hfresh : ∀ r ∈ db.refreshTokens, r.tokenHash ≠ row.tokenHash)
    (hr : r ∈ updateWhere (·.id == existing.id) (RefreshToken.revoke now)
      (familyRows existing.familyId db) ++ [row]) :
    r.revokedAt = none ↔ toIssued row = toIssued r := by
  rcases List.mem_append.1 hr with hr | hr
  · -- an older row is revoked and is not the newest
    obtain ⟨r₀, hr₀, rfl⟩ := mem_updateWhere.1 hr
    obtain ⟨hmem₀, hfam₀⟩ := mem_familyRows.1 hr₀
    have hnew : toIssued row ≠ toIssued r₀ := fun heq =>
      hfresh r₀ hmem₀ (hash_eq_of_toIssued heq).symm
    by_cases hsame : r₀.id = existing.id
    · simp only [hsame, beq_self_eq_true, if_true]
      exact iff_of_false (by simp [RefreshToken.revoke]) hnew
    · have hne : r₀ ≠ existing := fun heq => hsame (heq ▸ rfl)
      have hno : (r₀.id == existing.id) = false := by simpa using hsame
      simp only [hno, Bool.false_eq_true, if_false]
      exact iff_of_false (h.revoked_of_ne hmem hlive hmem₀ hfam₀ hne) hnew
  · rw [List.mem_singleton.1 hr]
    exact iff_of_true hrow rfl

/-- Revoking one row does not touch the other families. -/
theorem live_of_ne (h : Represents (db, families)) {existing r : RefreshToken}
    (hmem : existing ∈ db.refreshTokens) {now : Date} {F : Family} (hF : F ∈ families)
    (hne : F.id ≠ existing.familyId)
    (hr : r ∈ updateWhere (·.id == existing.id) (RefreshToken.revoke now) (familyRows F.id db)) :
    r.revokedAt = none ↔ F.closed = false ∧ F.tokens.head? = some (toIssued r) := by
  obtain ⟨r₀, hr₀, rfl⟩ := mem_updateWhere.1 hr
  obtain ⟨hmem₀, hfam₀⟩ := mem_familyRows.1 hr₀
  have hother : (r₀.id == existing.id) = false := by
    refine beq_eq_false_iff_ne.2 fun hsame => hne ?_
    rw [← hfam₀, h.tokenIds.eq_of_key_eq hmem₀ hmem hsame]
  simp only [hother, Bool.false_eq_true, if_false]
  exact h.live F hF r₀ hr₀

/-- The new row is the newest token of the family, and the other families keep theirs. -/
theorem tokens_extended (h : Represents (db, families)) {existing row : RefreshToken} {F : Family}
    (hF : F ∈ families) (hfam : row.familyId = existing.familyId) (now : Date)
    {tokens : IssuedTokens}
    (hissued : toIssued row = ⟨tokens.refreshToken, tokens.refreshExpiresAt⟩) :
    (if F.id == existing.familyId then Family.extend tokens F else F).tokens =
      ((familyRows (if F.id == existing.familyId then Family.extend tokens F else F).id
        ((db.markRevoked existing.id now).insertRefreshToken row)).map toIssued).reverse := by
  have htokens := h.tokens F hF
  rw [familyRows_extend hfam]
  by_cases hid : F.id = existing.familyId
  · simp only [hid, beq_self_eq_true, if_true, Family.extend, List.map_append,
      map_toIssued_revoke, List.reverse_append, List.map_cons, List.map_nil,
      List.reverse_singleton, hissued]
    rw [htokens, hid]
    rfl
  · have hno : (F.id == existing.familyId) = false := by simpa using hid
    simp only [hno, Bool.false_eq_true, if_false, if_neg (Ne.symm hid), List.append_nil,
      map_toIssued_revoke]
    exact htokens

/-- A successor of the newest token of an open family extends the family. -/
theorem extend (h : Represents (db, families)) {existing : RefreshToken} (row : RefreshToken)
    (hmem : existing ∈ db.refreshTokens) (hlive : existing.revokedAt = none) (now : Date)
    (hfam : row.familyId = existing.familyId) (hrow : row.revokedAt = none)
    (hfresh : ∀ r ∈ db.refreshTokens, r.id ≠ row.id ∧ r.tokenHash ≠ row.tokenHash)
    (howner : ∃ u ∈ db.users, u.id = row.userId) {tokens : IssuedTokens}
    (hissued : toIssued row = ⟨tokens.refreshToken, tokens.refreshExpiresAt⟩) :
    Represents ((db.markRevoked existing.id now).insertRefreshToken row,
      updateWhere (·.id == existing.familyId) (Family.extend tokens) families) := by
  have hrows : ∀ f, familyRows f ((db.markRevoked existing.id now).insertRefreshToken row) = _ :=
    familyRows_extend hfam now
  have hids : UniqueKey RefreshToken.id (db.markRevoked existing.id now).refreshTokens :=
    h.tokenIds.update fun _ _ _ => rfl
  have hhashes : UniqueKey RefreshToken.tokenHash (db.markRevoked existing.id now).refreshTokens :=
    h.hashes.update fun _ _ _ => rfl
  refine ⟨h.familyIds.update fun _ _ _ => rfl, hids.insert ?_, hhashes.insert ?_, ?_, ?_, ?_, ?_,
    ?_⟩
  · intro r hr
    obtain ⟨r₀, hr₀, hid, _⟩ := mem_markRevoked hr
    exact hid ▸ (hfresh r₀ hr₀).1
  · intro r hr
    obtain ⟨r₀, hr₀, _, hhash, _⟩ := mem_markRevoked hr
    exact hhash ▸ (hfresh r₀ hr₀).2
  · intro r hr
    rcases List.mem_append.1 hr with hr | hr
    · obtain ⟨r₀, hr₀, _, _, huser, _⟩ := mem_markRevoked hr
      exact huser ▸ h.owned r₀ hr₀
    · rw [List.mem_singleton.1 hr]
      exact howner
  · intro r hr
    have hsome : ∃ F ∈ families, F.id = r.familyId := by
      rcases List.mem_append.1 hr with hr | hr
      · obtain ⟨r₀, hr₀, _, _, _, hfam₀⟩ := mem_markRevoked hr
        exact hfam₀ ▸ h.family r₀ hr₀
      · rw [List.mem_singleton.1 hr, hfam]
        exact h.family existing hmem
    obtain ⟨F, hF, hid⟩ := hsome
    refine ⟨_, mem_updateWhere.2 ⟨F, hF, rfl⟩, ?_⟩
    split <;> exact hid
  · intro F hF
    obtain ⟨F₀, hF₀, rfl⟩ := mem_updateWhere.1 hF
    have hne := h.nonempty F₀ hF₀
    split
    · exact List.cons_ne_nil _ _
    · exact hne
  · intro F hF
    obtain ⟨F₀, hF₀, rfl⟩ := mem_updateWhere.1 hF
    exact h.tokens_extended hF₀ hfam now hissued
  · intro F hF r hr
    obtain ⟨F₀, hF₀, rfl⟩ := mem_updateWhere.1 hF
    by_cases hid : F₀.id = existing.familyId
    · have hopen :=
        (h.live F₀ hF₀ existing (mem_familyRows.2 ⟨hmem, hid.symm⟩)).1 hlive
      simp only [hid, beq_self_eq_true, if_true, Family.extend, hrows] at hr
      simp only [hid, beq_self_eq_true, if_true, Family.extend, List.head?_cons, ← hissued,
        hopen.1, true_and, Option.some.injEq]
      exact h.live_extended hmem hlive hrow (fun r hr => (hfresh r hr).2) hr
    · have hno : (F₀.id == existing.familyId) = false := by simpa using hid
      simp only [hno, Bool.false_eq_true, if_false, hrows, if_neg (Ne.symm hid),
        List.append_nil] at hr ⊢
      exact h.live_of_ne hmem hF₀ hid hr

/-- A presented token is unknown to rows and history alike, or names one row and one family. -/
theorem lookup (h : Represents (db, families)) (t : JsString) :
    (db.findRefreshToken (hash t) = none ∧ db.findRefreshTokenWithUser (hash t) = none ∧
      ∀ F ∈ families, F.holds t = false) ∨
    ∃ existing user, db.findRefreshToken (hash t) = some existing ∧
      db.findRefreshTokenWithUser (hash t) = some (existing, user) ∧
      (∃ u ∈ db.users, u.id = user.sub) ∧
      ∀ F ∈ families, F.holds t = (F.id == existing.familyId) := by
  cases hfind : db.findRefreshToken (hash t) with
  | none =>
      refine .inl ⟨rfl, by simp [Db.findRefreshTokenWithUser, hfind], fun F hF => ?_⟩
      rw [← Bool.not_eq_true, h.holds_iff hF]
      rintro ⟨r, hr, _, hhash⟩
      exact absurd hhash (by simpa using List.find?_eq_none.1 hfind r hr)
  | some existing =>
      right
      obtain ⟨hmem, hhash⟩ := Db.mem_of_findRefreshToken hfind
      obtain ⟨u, hu, huid⟩ := h.owned existing hmem
      have hsome : (db.users.find? (·.id == existing.userId)).isSome = true :=
        List.find?_isSome.2 ⟨u, hu, by simpa using huid⟩
      obtain ⟨v, hv⟩ := Option.isSome_iff_exists.1 hsome
      refine ⟨existing, ⟨v.id, v.email⟩, rfl, ?_, ⟨v, List.mem_of_find?_eq_some hv, rfl⟩, ?_⟩
      · simp [Db.findRefreshTokenWithUser, hfind, hv]
      · intro F hF
        rw [Bool.eq_iff_iff, h.holds_iff_id hF hmem hhash, beq_iff_eq]

/-- The newest unexpired token of an open family is the usable row. -/
theorem accepts_iff (h : Represents (db, families)) {t : JsString} {existing : RefreshToken}
    (hfind : db.findRefreshToken (hash t) = some existing) (now : Date) :
    Accepts families t now ↔ existing.revokedAt = none ∧ ¬existing.expiresAt < now := by
  obtain ⟨hmem, hhash⟩ := Db.mem_of_findRefreshToken hfind
  have htoken : (toIssued existing).token = t := by
    rw [toIssued, hhash]
    rfl
  constructor
  · rintro ⟨F, hF, hopen, issued, hhead, rfl, hexp⟩
    have hin : issued ∈ F.tokens := List.mem_of_mem_head? hhead
    have hholds : F.holds issued.token = true := List.any_eq_true.2 ⟨issued, hin, by simp⟩
    have hfam := (h.holds_iff_id hF hmem hhash).1 hholds
    have htokens : F.tokens = ((familyRows F.id db).map toIssued).reverse := h.tokens F hF
    rw [htokens, List.mem_reverse, List.mem_map] at hin
    obtain ⟨r, hr, rfl⟩ := hin
    have hrhash : r.tokenHash = existing.tokenHash := by
      rw [hhash]
      rfl
    obtain rfl := h.hashes.eq_of_key_eq (mem_familyRows.1 hr).1 hmem hrhash
    exact ⟨(h.live F hF r hr).2 ⟨hopen, hhead⟩, hexp⟩
  · rintro ⟨hlive, hexp⟩
    obtain ⟨F, hF, hid⟩ := h.family existing hmem
    obtain ⟨hopen, hhead⟩ := (h.live F hF existing (mem_familyRows.2 ⟨hmem, hid.symm⟩)).1 hlive
    exact ⟨F, hF, hopen, toIssued existing, hhead, htoken, hexp⟩

theorem not_accepts (hnone : ∀ F ∈ families, F.holds t = false) (now : Date) :
    ¬Accepts families t now := by
  rintro ⟨F, hF, _, issued, hhead, rfl, _⟩
  have hholds : F.holds issued.token = true :=
    List.any_eq_true.2 ⟨issued, List.mem_of_mem_head? hhead, by simp⟩
  rw [hnone F hF] at hholds
  cases hholds

end Represents

/-! ### Runs -/

section Runs

variable {env : Env} {s s' : Db × List Family}

/-- What `rotate` does, told by the history. -/
theorem exec_rotate_cases (env : Env) (hs : Represents s) {gs : ℕ → Gen} (hfresh : Fresh (gs 2) s.1)
    (t : JsString) (device : DeviceInfo) :
    (Accepts s.2 t (gs 0).now ∧ ∃ tokens db,
      exec env gs (.rotate t device) s.1 = (.ok (some tokens), db) ∧
      tokens.refreshToken = randomToken (gs 2) ∧
      Represents (db, updateWhere (·.holds t) (Family.extend tokens) s.2)) ∨
    (¬Accepts s.2 t (gs 0).now ∧ ∃ e db, exec env gs (.rotate t device) s.1 = (.error e, db) ∧
      Represents (db, updateWhere (·.holds t) Family.close s.2)) := by
  obtain ⟨db, families⟩ := s
  rcases hs.lookup t with ⟨hfind, huser, hnone⟩ | ⟨existing, user, hfind, huser, howner, hholds⟩
  · right
    refine ⟨Represents.not_accepts hnone _, _, db, exec_rotate_unknown device huser, ?_⟩
    rw [updateWhere_eq_self hnone]
    exact hs
  · obtain ⟨hmem, hhash⟩ := Db.mem_of_findRefreshToken hfind
    have haccepts := hs.accepts_iff hfind (gs 0).now
    by_cases hreused : existing.revokedAt.isSome || existing.expiresAt < (gs 0).now
    · right
      refine ⟨?_, _, _, exec_rotate_reused device huser hreused, ?_⟩
      · rw [haccepts]
        simpa [imp_iff_or_not, or_comm, Option.isSome_iff_ne_none] using hreused
      · rw [updateWhere_congr hholds]
        exact hs.close existing.familyId _
    · left
      have hlive : existing.revokedAt = none ∧ ¬existing.expiresAt < (gs 0).now := by
        simpa using hreused
      refine ⟨haccepts.2 hlive, _, _, exec_rotate_ok device huser hreused hfresh, rfl, ?_⟩
      rw [updateWhere_congr hholds]
      exact hs.extend (newToken env (gs 2) user existing.familyId device) hmem hlive.1 _ rfl rfl
        (fun r hr => ⟨(hfresh r hr).1, (hfresh r hr).2.1⟩) howner rfl

/-- What `revoke` does, told by the history. -/
theorem exec_revoke_cases (env : Env) (hs : Represents s) (gs : ℕ → Gen) (t : JsString) :
    ∃ db, exec env gs (.revoke t) s.1 = (.ok none, db) ∧
      Represents (db, updateWhere (·.holds t) Family.close s.2) := by
  obtain ⟨db, families⟩ := s
  rcases hs.lookup t with ⟨hfind, _, hnone⟩ | ⟨existing, _, hfind, _, _, hholds⟩
  · refine ⟨db, exec_revoke_unknown hfind, ?_⟩
    rw [updateWhere_eq_self hnone]
    exact hs
  · refine ⟨_, exec_revoke hfind, ?_⟩
    rw [updateWhere_congr hholds]
    exact hs.close existing.familyId _

theorem Represents.step {call : (ℕ → Gen) × Request} (hs : Represents s)
    (h : CallStep env s call s') : Represents s' := by
  obtain ⟨gs, request⟩ := call
  obtain ⟨hfresh, hdb, hfamilies⟩ := h
  obtain ⟨db', families'⟩ := s'
  simp only at hdb hfamilies
  subst hdb hfamilies
  cases request with
  | issueForUser user device =>
      simp only [exec_issueForUser user device (hfresh 0)]
      split
      · rename_i howner
        obtain ⟨u, hu, huid⟩ := List.any_eq_true.1 howner
        exact hs.start (newToken env (gs 0) user (nanoid (gs 0)) device) (hfresh 0)
          ⟨u, hu, beq_iff_eq.1 huid⟩ rfl
      · exact hs
  | rotate t device =>
      rcases exec_rotate_cases env hs (hfresh 2) t device with
        ⟨_, tokens, db, hexec, _, hrep⟩ | ⟨_, e, db, hexec, hrep⟩
      · rw [hexec]
        exact hrep
      · rw [hexec]
        exact hrep
  | revoke t =>
      obtain ⟨db, hexec, hrep⟩ := exec_revoke_cases env hs gs t
      rw [hexec]
      exact hrep

/-- `t` is known and its family is closed. -/
structure ClosedFor (t : JsString) (s : Db × List Family) : Prop where
  represents : Represents s
  known : ∃ F ∈ s.2, F.holds t = true
  closed : ∀ F ∈ s.2, F.holds t = true → F.closed = true

theorem ClosedFor.row {t : JsString} (hs : ClosedFor t s) :
    ∃ r ∈ s.1.refreshTokens, r.tokenHash = hash t := by
  obtain ⟨F, hF, hholds⟩ := hs.known
  obtain ⟨r, hr, _, hhash⟩ := (hs.represents.holds_iff hF).1 hholds
  exact ⟨r, hr, hhash⟩

/-- No fresh token is a known one. -/
theorem ClosedFor.ne_randomToken {t : JsString} (hs : ClosedFor t s) {g : Gen}
    (hfresh : Fresh g s.1) : randomToken g ≠ t := by
  rintro rfl
  obtain ⟨r, hr, hhash⟩ := hs.row
  exact (hfresh r hr).2.1 hhash

/-- Updates that keep the tokens named `t` and never reopen a family. -/
theorem closed_updateWhere {t : JsString} {p : Family → Bool} {f : Family → Family}
    {families : List Family} (hholds : ∀ F, (f F).holds t = F.holds t)
    (hclosed : ∀ F, F.closed = true → (f F).closed = true)
    (hknown : ∃ F ∈ families, F.holds t = true)
    (h : ∀ F ∈ families, F.holds t = true → F.closed = true) :
    (∃ F ∈ updateWhere p f families, F.holds t = true) ∧
      ∀ F ∈ updateWhere p f families, F.holds t = true → F.closed = true := by
  constructor
  · obtain ⟨F, hF, hFt⟩ := hknown
    refine ⟨_, mem_updateWhere.2 ⟨F, hF, rfl⟩, ?_⟩
    split
    · exact (hholds F).trans hFt
    · exact hFt
  · intro F hF
    obtain ⟨F₀, hF₀, rfl⟩ := mem_updateWhere.1 hF
    split
    · exact fun hFt => hclosed F₀ (h F₀ hF₀ ((hholds F₀).symm.trans hFt))
    · exact h F₀ hF₀

theorem ClosedFor.step {t : JsString} {call : (ℕ → Gen) × Request} (hs : ClosedFor t s)
    (h : CallStep env s call s') : ClosedFor t s' := by
  have hrep := hs.represents.step h
  obtain ⟨gs, request⟩ := call
  obtain ⟨hfresh, hdb, hfamilies⟩ := h
  suffices hgoal : (∃ F ∈ s'.2, F.holds t = true) ∧
      ∀ F ∈ s'.2, F.holds t = true → F.closed = true from ⟨hrep, hgoal.1, hgoal.2⟩
  rw [hfamilies]
  cases request with
  | issueForUser user device =>
      simp only [exec_issueForUser user device (hfresh 0)]
      split
      · obtain ⟨F, hF, hFt⟩ := hs.known
        refine ⟨⟨F, List.mem_append_left _ hF, hFt⟩, fun G hG hGt => ?_⟩
        rcases List.mem_append.1 hG with hG | hG
        · exact hs.closed G hG hGt
        · rw [List.mem_singleton.1 hG] at hGt
          simp only [Family.holds, issued, List.any_cons, List.any_nil, Bool.or_false,
            beq_iff_eq] at hGt
          exact absurd hGt (hs.ne_randomToken (hfresh 0))
      · exact ⟨hs.known, hs.closed⟩
  | rotate u device =>
      rcases exec_rotate_cases env hs.represents (hfresh 2) u device with
        ⟨_, tokens, db, hexec, htoken, _⟩ | ⟨_, e, db, hexec, _⟩
      · rw [hexec]
        refine closed_updateWhere (fun F => ?_) (fun F hF => hF) hs.known hs.closed
        have hne : (tokens.refreshToken == t) = false :=
          beq_eq_false_iff_ne.2 (htoken ▸ hs.ne_randomToken (hfresh 2))
        simp [Family.holds, Family.extend, hne]
      · rw [hexec]
        exact closed_updateWhere (fun F => rfl) (fun F _ => rfl) hs.known hs.closed
  | revoke u =>
      obtain ⟨db, hexec, _⟩ := exec_revoke_cases env hs.represents gs u
      rw [hexec]
      exact closed_updateWhere (fun F => rfl) (fun F _ => rfl) hs.known hs.closed

/-- No token of a closed family is accepted. -/
theorem ClosedFor.not_accepts {t t' : JsString} (hs : ClosedFor t s) {F : Family} (hF : F ∈ s.2)
    (hFt : F.holds t = true) (hFt' : F.holds t' = true) (now : Date) :
    ¬Accepts s.2 t' now := by
  rintro ⟨G, hG, hopen, issued, hhead, rfl, _⟩
  have hGt' : G.holds issued.token = true :=
    List.any_eq_true.2 ⟨issued, List.mem_of_mem_head? hhead, by simp⟩
  rw [hs.represents.eq_of_holds hG hF hGt' hFt', hs.closed F hF hFt] at hopen
  cases hopen

theorem represents_empty {db : Db} (hempty : db.refreshTokens = []) : Represents (db, []) := by
  constructor <;> simp [UniqueKey, hempty]

/-- **Acceptance is decided by the history of the family.**  After any run of calls made one at a
time, `rotate(t)` succeeds exactly when `t` is the newest token of its family, unexpired, and the
family is open.  Otherwise it throws, and then no token of `t`'s family ever rotates again. -/
theorem rotate_iff_accepts {db₀ : Db} {calls : List ((ℕ → Gen) × Request)} {gs : ℕ → Gen}
    (hempty : db₀.refreshTokens = []) (hrun : Run (CallStep env) (db₀, []) calls s)
    (hfresh : ∀ k, Fresh (gs k) s.1) (t : JsString) (device : DeviceInfo) :
    ((∃ tokens, (exec env gs (.rotate t device) s.1).1 = .ok tokens) ↔
      Accepts s.2 t (gs 0).now) ∧
    (¬Accepts s.2 t (gs 0).now →
      (∃ e, (exec env gs (.rotate t device) s.1).1 = .error e) ∧
      ((∃ F ∈ s.2, F.holds t = true) → ∀ s₁ later s₂,
        CallStep env s (gs, .rotate t device) s₁ → Run (CallStep env) s₁ later s₂ →
        ∀ F ∈ s₂.2, F.holds t = true → ∀ t', F.holds t' = true →
        ∀ gs' device', (∀ k, Fresh (gs' k) s₂.1) →
        ∃ e, (exec env gs' (.rotate t' device') s₂.1).1 = .error e)) := by
  have hs : Represents s :=
    hrun.invariant (P := Represents) (fun _ _ _ hs hst => hs.step hst) (represents_empty hempty)
  rcases exec_rotate_cases env hs (hfresh 2) t device with
    ⟨haccepts, tokens, db, hexec, _, _⟩ | ⟨hrejects, e, db, hexec, _⟩
  · refine ⟨⟨fun _ => haccepts, fun _ => ⟨some tokens, by rw [hexec]⟩⟩, fun hno => ?_⟩
    exact absurd haccepts hno
  · refine ⟨⟨?_, fun hyes => absurd hyes hrejects⟩, fun _ => ⟨⟨e, by rw [hexec]⟩, ?_⟩⟩
    · rintro ⟨tokens, hok⟩
      rw [hexec] at hok
      cases hok
    intro hknown s₁ later s₂ hstep hlater F hF hFt t' hFt' gs' device' hfresh'
    have hclosed₁ : ClosedFor t s₁ := by
      have hrep₁ := hs.step hstep
      obtain ⟨_, _, hfamilies⟩ := hstep
      rw [hexec] at hfamilies
      obtain ⟨G, hG, hGt⟩ := hknown
      refine ⟨hrep₁, ?_, ?_⟩
      · rw [hfamilies]
        exact ⟨G.close, mem_updateWhere.2 ⟨G, hG, by rw [if_pos hGt]⟩, hGt⟩
      · intro H hH hHt
        rw [hfamilies] at hH
        obtain ⟨H₀, _, rfl⟩ := mem_updateWhere.1 hH
        by_cases hH₀ : H₀.holds t = true
        · rw [if_pos hH₀]
          rfl
        · rw [if_neg hH₀] at hHt
          exact absurd hHt hH₀
    have hclosed : ClosedFor t s₂ :=
      hlater.invariant (P := ClosedFor t) (fun _ _ _ hs hst => hs.step hst) hclosed₁
    rcases exec_rotate_cases env hclosed.represents (hfresh' 2) t' device' with
      ⟨haccepts, _⟩ | ⟨_, e', db', hexec', _⟩
    · exact absurd haccepts (hclosed.not_accepts hF hFt hFt' _)
    · exact ⟨e', by rw [hexec']⟩

end Runs

namespace Samples

def login : (ℕ → Gen) × Request := (fun _ => first, .issueForUser user device)

/-- Rows and history after one login. -/
def loggedIn : Db × List Family :=
  ((exec env login.1 login.2 Demo.world.db).2,
    recordCall [] login.1 login.2 (exec env login.1 login.2 Demo.world.db).1)

theorem run_login : Run (CallStep env) (Demo.world.db, []) [login] loggedIn := by
  have hfresh : Fresh first Demo.world.db := by decide
  exact Run.nil.snoc ⟨fun _ => hfresh, rfl, rfl⟩

end Samples

open Samples in
theorem rotate_iff_accepts_first_token :
    ∃ tokens, (exec env (fun _ => second) (.rotate (js "t0") device) loggedIn.1).1 =
      .ok tokens := by
  have hfresh : Fresh second loggedIn.1 := by decide
  have hiff := (rotate_iff_accepts rfl run_login (fun _ => hfresh) (js "t0") device).1
  exact hiff.2 ⟨⟨js "t0", [⟨js "t0", 1209600000⟩], false⟩, by decide, rfl, ⟨js "t0", 1209600000⟩,
    by decide, rfl, by decide⟩

end TokenService

end PmSaas
