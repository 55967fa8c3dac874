import Mathlib.Data.Fintype.Basic
import PmSaas.Auth.TokenService
import PmSaas.Lib.Interleaving

/-!
# Concurrent token calls

Any number of `issueForUser`, `rotate` and `revoke` calls take turns, one Prisma call at a time.
`rotate` reads, revokes and inserts in three steps, so two of them can pass the check on one token
and then both insert a successor (`two_rotations_two_tokens`), and a successor can arrive after
its family was revoked (`successor_after_logout`).

* `singleUse_of_exclusive`: as long as no `rotate` consumes its token while the family has another
  holder — an unrevoked token or a successor about to be inserted — every family has at most one
  usable token;
* `revocation_final`: as long as no family is revoked with a `rotate` of it in flight, revoking
  is final.
-/

namespace PmSaas

open Table TransitionSystem

namespace TokenService

/-- Neither revoked nor expired. -/
def usable (now : Date) (t : RefreshToken) : Prop := t.revokedAt = none ∧ ¬t.expiresAt < now

instance (now : Date) (t : RefreshToken) : Decidable (usable now t) :=
  inferInstanceAs (Decidable (_ ∧ _))

/-- Requests in flight over one database. -/
abbrev TokenPool (ι : Type*) := Pool ι Pc Db

section Pools

variable {ι : Type*} [DecidableEq ι] {env : Env}

/-- One Prisma call of one request. -/
def PoolStep (env : Env) (s : TokenPool ι) (a : ι × Gen) (s' : TokenPool ι) : Prop :=
  Fresh a.2 s.store ∧ s' = s.advance (step env a.2) a.1

/-- Nothing issued and every call still to begin. -/
structure Initial (s : TokenPool ι) : Prop where
  tokens : s.store.refreshTokens = []
  calls : ∀ i, ∃ request, s.thread i = .start request

/-- Each family has at most one token that is neither revoked nor expired. -/
def SingleUse (s : TokenPool ι) : Prop :=
  ∀ now, ∀ t ∈ s.store.refreshTokens, ∀ t' ∈ s.store.refreshTokens,
    usable now t → usable now t' → t.familyId = t'.familyId → t = t'

/-- What one step of the pool is. -/
theorem PoolStep.cases {s s' : TokenPool ι} {i : ι} {g : Gen} (h : PoolStep env s (i, g) s') :
    Fresh g s.store ∧ ∃ pc, Step env g s.store (s.thread i) pc s'.store ∧ s'.thread i = pc ∧
      ∀ j, j ≠ i → s'.thread j = s.thread j := by
  obtain ⟨hfresh, rfl⟩ := h
  refine ⟨hfresh, _, ?_, rfl, fun j hj => Pool.advance_thread_of_ne _ s hj⟩
  rw [Pool.advance_thread_self, Pool.advance_store]
  exact step_spec _

/-! ### The token table -/

/-- The rows of `ts` with some of them revoked. -/
structure Revoked (ts ts' : List RefreshToken) : Prop where
  hashes : ts'.map RefreshToken.tokenHash = ts.map RefreshToken.tokenHash
  back : ∀ t' ∈ ts', ∃ t ∈ ts, t'.familyId = t.familyId ∧ t'.tokenHash = t.tokenHash ∧
    (t'.revokedAt = none → t' = t)
  kept : ∀ t ∈ ts, ∃ t' ∈ ts', t'.familyId = t.familyId ∧ t'.tokenHash = t.tokenHash

theorem Revoked.refl (ts : List RefreshToken) : Revoked ts ts :=
  ⟨rfl, fun t ht => ⟨t, ht, rfl, rfl, fun _ => rfl⟩, fun t ht => ⟨t, ht, rfl, rfl⟩⟩

theorem mem_revoke {p : RefreshToken → Bool} {now : Date} {ts : List RefreshToken}
    {t' : RefreshToken} (h : t' ∈ updateWhere p (RefreshToken.revoke now) ts) :
    ∃ t ∈ ts, t'.familyId = t.familyId ∧ t'.tokenHash = t.tokenHash ∧
      (t'.revokedAt = none → t' = t ∧ p t = false) := by
  obtain ⟨t, ht, rfl⟩ := mem_updateWhere.1 h
  cases hp : p t with
  | true => exact ⟨t, ht, rfl, rfl, fun h => by cases h⟩
  | false => exact ⟨t, ht, rfl, rfl, fun _ => ⟨rfl, hp⟩⟩

theorem Revoked.updateWhere (p : RefreshToken → Bool) (now : Date) (ts : List RefreshToken) :
    Revoked ts (updateWhere p (RefreshToken.revoke now) ts) := by
  refine ⟨map_updateWhere fun _ _ _ => rfl, fun t' ht' => ?_, fun t ht => ?_⟩
  · obtain ⟨t, ht, hfam, hhash, hnone⟩ := mem_revoke ht'
    exact ⟨t, ht, hfam, hhash, fun h => (hnone h).1⟩
  · refine ⟨_, mem_updateWhere.2 ⟨t, ht, rfl⟩, ?_⟩
    split <;> exact ⟨rfl, rfl⟩

variable {g : Gen} {db db' : Db} {pc pc' : Pc}

/-- A step revokes tokens or inserts one. -/
theorem Step.rows (h : Step env g db pc pc' db') :
    Revoked db.refreshTokens db'.refreshTokens ∨
    ∃ user familyId device, (pc.inserting = some familyId ∨ familyId = nanoid g) ∧
      pc'.family = none ∧
      db'.refreshTokens = db.refreshTokens ++ [newToken env g user familyId device] := by
  cases h with
  | rejectSweep familyId => exact .inl (.updateWhere ..)
  | logoutSweep familyId => exact .inl (.updateWhere ..)
  | consume existing user device present => exact .inl (.updateWhere ..)
  | @insert _ user familyId device origin fresh owner =>
      right
      refine ⟨user, familyId, device, ?_, rfl, rfl⟩
      rcases origin with rfl | ⟨_, hfam⟩
      · exact .inl rfl
      · exact .inr hfam
  | _ => exact .inl (.refl _)

/-- A family a call turns to is one it had looked up or has a row. -/
theorem Step.family (h : Step env g db pc pc' db') {familyId : JsString}
    (hfam : pc'.family = some familyId) :
    pc.family = some familyId ∨ ∃ t ∈ db.refreshTokens, t.familyId = familyId := by
  cases h with
  | reject found _ =>
      cases hfam
      exact .inr ⟨_, (Db.mem_of_findRefreshTokenWithUser found).1, rfl⟩
  | check found _ _ =>
      cases hfam
      exact .inr ⟨_, (Db.mem_of_findRefreshTokenWithUser found).1, rfl⟩
  | logout found =>
      cases hfam
      exact .inr ⟨_, (Db.mem_of_findRefreshToken found).1, rfl⟩
  | consume existing user device present =>
      cases hfam
      exact .inl rfl
  | _ => cases hfam

/-- The family of a call in flight has a row. -/
def Rooted (s : TokenPool ι) : Prop :=
  ∀ i familyId, (s.thread i).family = some familyId →
    ∃ t ∈ s.store.refreshTokens, t.familyId = familyId

theorem Rooted.step {s s' : TokenPool ι} {a : ι × Gen} (hs : Rooted s) (h : PoolStep env s a s') :
    Rooted s' := by
  obtain ⟨i, g⟩ := a
  obtain ⟨_, pc, hstep, rfl, hother⟩ := h.cases
  have hkept : ∀ f, (∃ t ∈ s.store.refreshTokens, t.familyId = f) →
      ∃ t ∈ s'.store.refreshTokens, t.familyId = f := by
    rintro f ⟨t, ht, rfl⟩
    rcases hstep.rows with hrev | ⟨user, f, device, _, _, hrows⟩
    · obtain ⟨t', ht', hfam, _⟩ := hrev.kept t ht
      exact ⟨t', ht', hfam⟩
    · exact ⟨t, hrows ▸ List.mem_append_left _ ht, rfl⟩
  intro j f hf
  refine hkept f ?_
  by_cases hj : j = i
  · subst hj
    exact (hstep.family hf).elim (hs j f) id
  · rw [hother j hj] at hf
    exact hs j f hf

omit [DecidableEq ι] in
theorem Initial.rooted {s : TokenPool ι} (h : Initial s) : Rooted s := by
  intro i f hf
  obtain ⟨request, hstart⟩ := h.calls i
  rw [hstart] at hf
  cases hf

/-! ### At most one usable token -/

/-- The condition on a step: when a `rotate` consumes its token, the family has no other
unrevoked token and no successor about to be inserted. -/
def Exclusive (s : TokenPool ι) (a : ι × Gen) : Prop :=
  ∀ existing ∈ (s.thread a.1).consumed,
    (∀ t ∈ s.store.refreshTokens, t.familyId = existing.familyId → t.revokedAt = none →
      t.id = existing.id) ∧
    ∀ j, (s.thread j).inserting ≠ some existing.familyId

instance [Fintype ι] (s : TokenPool ι) (a : ι × Gen) : Decidable (Exclusive s a) :=
  inferInstanceAs (Decidable (∀ _ ∈ _, _ ∧ _))

/-- An unrevoked token or a successor about to be inserted: a family has at most one of them. -/
structure OneHolder (s : TokenPool ι) : Prop where
  rooted : Rooted s
  token : ∀ t ∈ s.store.refreshTokens, ∀ t' ∈ s.store.refreshTokens,
    t.revokedAt = none → t'.revokedAt = none → t.familyId = t'.familyId → t = t'
  tokenOrInsert : ∀ t ∈ s.store.refreshTokens, t.revokedAt = none →
    ∀ i, (s.thread i).inserting ≠ some t.familyId
  insert : ∀ i j familyId, (s.thread i).inserting = some familyId →
    (s.thread j).inserting = some familyId → i = j

omit [DecidableEq ι] in
theorem Initial.oneHolder {s : TokenPool ι} (h : Initial s) : OneHolder s := by
  have hinserting : ∀ i, (s.thread i).inserting = none := by
    intro i
    obtain ⟨request, hstart⟩ := h.calls i
    rw [hstart]
    rfl
  refine ⟨h.rooted, ?_, ?_, ?_⟩
  · intro t ht
    rw [h.tokens] at ht
    cases ht
  · intro t ht
    rw [h.tokens] at ht
    cases ht
  · intro i j f hi
    rw [hinserting i] at hi
    cases hi

omit [DecidableEq ι] in
/-- Revoking tokens and leaving a call never adds a holder. -/
theorem OneHolder.revoked {s s' : TokenPool ι} (hs : OneHolder s) (hroot : Rooted s')
    (hrows : Revoked s.store.refreshTokens s'.store.refreshTokens)
    (hins : ∀ j f, (s'.thread j).inserting = some f → (s.thread j).inserting = some f) :
    OneHolder s' := by
  have hback : ∀ t ∈ s'.store.refreshTokens, t.revokedAt = none → t ∈ s.store.refreshTokens := by
    intro t ht hnone
    obtain ⟨t₀, ht₀, _, _, heq⟩ := hrows.back t ht
    rw [heq hnone]
    exact ht₀
  refine ⟨hroot, ?_, ?_, ?_⟩
  · intro t ht t' ht' hnone hnone'
    exact hs.token t (hback t ht hnone) t' (hback t' ht' hnone') hnone hnone'
  · intro t ht hnone j hj
    exact hs.tokenOrInsert t (hback t ht hnone) hnone j (hins j _ hj)
  · intro i j f hi hj
    exact hs.insert i j f (hins i f hi) (hins j f hj)

/-- Consuming the family's only holder makes the call the only holder. -/
theorem OneHolder.consume {s s' : TokenPool ι} {i : ι} {g : Gen} (hs : OneHolder s)
    (hroot : Rooted s') {existing : RefreshToken} {user : AuthUser} {device : DeviceInfo}
    (hexcl : Exclusive s (i, g)) (hthread : s.thread i = .consuming existing user device)
    (hstore : s'.store = s.store.markRevoked existing.id g.now)
    (hthread' : s'.thread i = .creating user existing.familyId device)
    (hother : ∀ j, j ≠ i → s'.thread j = s.thread j) : OneHolder s' := by
  obtain ⟨honly, hnone⟩ := hexcl existing (hthread ▸ rfl)
  have hrows : ∀ t ∈ s'.store.refreshTokens, t.revokedAt = none →
      t ∈ s.store.refreshTokens ∧ t.familyId ≠ existing.familyId := by
    intro t ht hlive
    rw [hstore] at ht
    obtain ⟨t₀, ht₀, _, _, hsame⟩ := mem_revoke ht
    obtain ⟨rfl, hid⟩ := hsame hlive
    refine ⟨ht₀, fun hfam => ?_⟩
    rw [honly t ht₀ hfam hlive] at hid
    simp at hid
  have hins : ∀ j f, (s'.thread j).inserting = some f →
      j = i ∧ f = existing.familyId ∨ j ≠ i ∧ (s.thread j).inserting = some f := by
    intro j f hj
    by_cases hji : j = i
    · subst hji
      rw [hthread'] at hj
      cases hj
      exact .inl ⟨rfl, rfl⟩
    · rw [hother j hji] at hj
      exact .inr ⟨hji, hj⟩
  refine ⟨hroot, ?_, ?_, ?_⟩
  · intro t ht t' ht' hlive hlive'
    exact hs.token t (hrows t ht hlive).1 t' (hrows t' ht' hlive').1 hlive hlive'
  · intro t ht hlive j hj
    rcases hins j _ hj with ⟨_, hfam⟩ | ⟨_, hold⟩
    · exact (hrows t ht hlive).2 hfam
    · exact hs.tokenOrInsert t (hrows t ht hlive).1 hlive j hold
  · intro j k f hj hk
    rcases hins j f hj with ⟨rfl, rfl⟩ | ⟨_, hj'⟩
    · rcases hins k _ hk with ⟨rfl, _⟩ | ⟨_, hk'⟩
      · rfl
      · exact absurd hk' (hnone k)
    · rcases hins k f hk with ⟨rfl, rfl⟩ | ⟨_, hk'⟩
      · exact absurd hj' (hnone j)
      · exact hs.insert j k f hj' hk'

/-- The token a call inserts takes the call's place as the family's holder. -/
theorem OneHolder.inserted {s s' : TokenPool ι} {i : ι} {g : Gen} (hs : OneHolder s)
    (hroot : Rooted s') (hfresh : Fresh g s.store) {user : AuthUser} {familyId : JsString}
    {device : DeviceInfo}
    (horigin : (s.thread i).inserting = some familyId ∨ familyId = nanoid g)
    (hrows : s'.store.refreshTokens =
      s.store.refreshTokens ++ [newToken env g user familyId device])
    (hthread' : (s'.thread i).family = none)
    (hother : ∀ j, j ≠ i → s'.thread j = s.thread j) : OneHolder s' := by
  have hmem : ∀ t, t ∈ s'.store.refreshTokens →
      t ∈ s.store.refreshTokens ∨ t = newToken env g user familyId device := by
    intro t ht
    rw [hrows] at ht
    simpa using ht
  have hleft : ∀ j f, (s'.thread j).inserting = some f → j ≠ i ∧ (s.thread j).inserting = some f := by
    intro j f hj
    by_cases hji : j = i
    · subst hji
      rw [Pc.family_of_inserting hj] at hthread'
      cases hthread'
    · exact ⟨hji, hother j hji ▸ hj⟩
  -- the family had no other holder: it is the call's own, or new
  have hrow : ∀ t ∈ s.store.refreshTokens, t.revokedAt = none → t.familyId ≠ familyId := by
    intro t ht hlive hfam
    rcases horigin with hins | rfl
    · exact hs.tokenOrInsert t ht hlive i (hfam ▸ hins)
    · exact (hfresh t ht).2.2 hfam
  have hcall : ∀ j, j ≠ i → (s.thread j).inserting ≠ some familyId := by
    intro j hj hins
    rcases horigin with hown | rfl
    · exact hj (hs.insert j i familyId hins hown)
    · obtain ⟨t, ht, hfam⟩ := hs.rooted j (nanoid g) (Pc.family_of_inserting hins)
      exact (hfresh t ht).2.2 hfam
  refine ⟨hroot, ?_, ?_, ?_⟩
  · intro t ht t' ht' hlive hlive' hfam
    rcases hmem t ht with ht | rfl
    · rcases hmem t' ht' with ht' | rfl
      · exact hs.token t ht t' ht' hlive hlive' hfam
      · exact absurd hfam (hrow t ht hlive)
    · rcases hmem t' ht' with ht' | rfl
      · exact absurd hfam.symm (hrow t' ht' hlive')
      · rfl
  · intro t ht hlive j hj
    obtain ⟨hji, hins⟩ := hleft j _ hj
    rcases hmem t ht with ht | rfl
    · exact hs.tokenOrInsert t ht hlive j hins
    · exact hcall j hji hins
  · intro j k f hj hk
    exact hs.insert j k f (hleft j f hj).2 (hleft k f hk).2

theorem OneHolder.step {s s' : TokenPool ι} {a : ι × Gen} (hs : OneHolder s)
    (h : Guarded (PoolStep env) Exclusive s a s') : OneHolder s' := by
  obtain ⟨i, g⟩ := a
  obtain ⟨hpool, hexcl⟩ := h
  have hroot := hs.rooted.step hpool
  obtain ⟨hfresh, pc, hstep, hpc, hother⟩ := hpool.cases
  have hquiet : pc.inserting = none →
      Revoked s.store.refreshTokens s'.store.refreshTokens → OneHolder s' := by
    intro hnone hrows
    refine hs.revoked hroot hrows fun j f hj => ?_
    by_cases hji : j = i
    · subst hji
      rw [hpc, hnone] at hj
      cases hj
    · exact hother j hji ▸ hj
  rcases hstep.rows with hrows | ⟨user, f, device, horigin, hnone, hrows⟩
  · generalize hthread : s.thread i = pc₀ at hstep
    generalize hstore : s'.store = db' at hstep
    cases hstep with
    | consume existing user device present =>
        exact hs.consume hroot hexcl hthread hstore hpc hother
    | _ => exact hquiet rfl hrows
  · exact hs.inserted hroot hfresh horigin hrows (hpc ▸ hnone) hother

/-- **Rotation is single-use where it is exclusive.**  In every run whose steps are `Exclusive`,
each family has at most one token that is neither revoked nor expired. -/
theorem singleUse_of_exclusive {s₀ s : TokenPool ι} {steps : List (ι × Gen)} (h₀ : Initial s₀)
    (hrun : Run (Guarded (PoolStep env) Exclusive) s₀ steps s) : SingleUse s := by
  have hs : OneHolder s :=
    hrun.invariant (P := OneHolder) (fun _ _ _ hs hstep => hs.step hstep) h₀.oneHolder
  intro now t ht t' ht' hu hu' hfam
  exact hs.token t ht t' ht' hu.1 hu'.1 hfam

/-! ### Finality of revocation -/

/-- The condition on a step: a family is revoked only while no `rotate` of it is between its check
and its insert. -/
def Quiescent (s : TokenPool ι) (a : ι × Gen) : Prop :=
  ∀ familyId ∈ (s.thread a.1).sweeping, ∀ j, (s.thread j).inFlight ≠ some familyId

instance [Fintype ι] (s : TokenPool ι) (a : ι × Gen) : Decidable (Quiescent s a) :=
  inferInstanceAs (Decidable (∀ _ ∈ _, ∀ _, _))

/-- A family that is revoked for good: its tokens are those of `ts`, all revoked, and no call is
about to insert another. -/
structure Dead (familyId : JsString) (ts : List RefreshToken) (s : TokenPool ι) : Prop where
  known : ∃ t ∈ s.store.refreshTokens, t.familyId = familyId
  revoked : ∀ t ∈ s.store.refreshTokens, t.familyId = familyId → t.revokedAt ≠ none
  closed : ∀ t ∈ s.store.refreshTokens, t.familyId = familyId →
    ∃ t₀ ∈ ts, t₀.familyId = familyId ∧ t₀.tokenHash = t.tokenHash
  idle : ∀ i, (s.thread i).inFlight ≠ some familyId

theorem Dead.step {s s' : TokenPool ι} {a : ι × Gen} {familyId : JsString}
    {ts : List RefreshToken} (hs : Dead familyId ts s) (h : PoolStep env s a s') :
    Dead familyId ts s' := by
  obtain ⟨i, g⟩ := a
  obtain ⟨hfresh, pc, hstep, hpc, hother⟩ := h.cases
  have hrows : ∀ t ∈ s'.store.refreshTokens, t.familyId = familyId →
      ∃ t₀ ∈ s.store.refreshTokens, t₀.familyId = familyId ∧ t₀.tokenHash = t.tokenHash ∧
        (t.revokedAt = none → t₀.revokedAt = none) := by
    intro t ht hfam
    rcases hstep.rows with hrev | ⟨user, f, device, horigin, _, hrows⟩
    · obtain ⟨t₀, ht₀, hfam₀, hhash, hsame⟩ := hrev.back t ht
      exact ⟨t₀, ht₀, hfam₀ ▸ hfam, hhash.symm, fun hnone => hsame hnone ▸ hnone⟩
    · rw [hrows, List.mem_append, List.mem_singleton] at ht
      rcases ht with ht | rfl
      · exact ⟨t, ht, hfam, rfl, id⟩
      · -- a successor would come from a call in flight, a first token starts another family
        obtain rfl : f = familyId := hfam
        rcases horigin with hins | rfl
        · cases hthread : s.thread i with
          | creating user' f' device' =>
              rw [hthread] at hins
              exact absurd (hthread ▸ hins) (hs.idle i)
          | _ =>
              rw [hthread] at hins
              cases hins
        · obtain ⟨t, ht, hfam'⟩ := hs.known
          exact absurd hfam' (hfresh t ht).2.2
  refine ⟨?_, ?_, ?_, ?_⟩
  · obtain ⟨t, ht, hfam⟩ := hs.known
    rcases hstep.rows with hrev | ⟨user, f, device, _, _, hrows⟩
    · obtain ⟨t', ht', hfam', _⟩ := hrev.kept t ht
      exact ⟨t', ht', hfam' ▸ hfam⟩
    · exact ⟨t, hrows ▸ List.mem_append_left _ ht, hfam⟩
  · intro t ht hfam hnone
    obtain ⟨t₀, ht₀, hfam₀, _, hlive⟩ := hrows t ht hfam
    exact hs.revoked t₀ ht₀ hfam₀ (hlive hnone)
  · intro t ht hfam
    obtain ⟨t₀, ht₀, hfam₀, hhash, _⟩ := hrows t ht hfam
    obtain ⟨t₁, ht₁, hfam₁, hhash₁⟩ := hs.closed t₀ ht₀ hfam₀
    exact ⟨t₁, ht₁, hfam₁, hhash₁.trans hhash⟩
  · intro j hj
    by_cases hji : j = i
    · subst hji
      rw [hpc] at hj
      have hidle := hs.idle j
      generalize s.thread j = pc₀ at hstep hidle
      generalize s'.store = db' at hstep
      cases hstep with
      | check found unrevoked _ =>
          obtain ⟨hmem, _⟩ := Db.mem_of_findRefreshTokenWithUser found
          exact hs.revoked _ hmem (Option.some.inj hj) unrevoked
      | consume existing user device present => exact hidle hj
      | _ => cases hj
    · exact hs.idle j (hother j hji ▸ hj)

/-- Revoking a family nobody is rotating makes it dead. -/
theorem Dead.of_sweep {s s' : TokenPool ι} {i : ι} {g : Gen} {familyId : JsString}
    (hroot : Rooted s) (hsweep : (s.thread i).sweeping = some familyId)
    (h : Guarded (PoolStep env) Quiescent s (i, g) s') :
    Dead familyId s'.store.refreshTokens s' := by
  obtain ⟨hpool, hquiet⟩ := h
  have hidle := hquiet familyId hsweep
  obtain ⟨_, pc, hstep, hpc, hother⟩ := hpool.cases
  have hstore : s'.store = s.store.revokeFamily familyId g.now ∧ pc.inFlight = none := by
    generalize s.thread i = pc₀ at hstep hsweep
    generalize s'.store = db' at hstep ⊢
    cases hstep with
    | rejectSweep f =>
        cases hsweep
        exact ⟨rfl, rfl⟩
    | logoutSweep f =>
        cases hsweep
        exact ⟨rfl, rfl⟩
    | refuse pc e hnone =>
        rw [hnone] at hsweep
        cases hsweep
    | insert origin _ _ =>
        rcases origin with rfl | ⟨rfl, _⟩ <;> cases hsweep
    | _ => cases hsweep
  obtain ⟨hstore, hleft⟩ := hstore
  refine ⟨?_, ?_, fun t ht hfam => ⟨t, ht, hfam, rfl⟩, ?_⟩
  · obtain ⟨t, ht, hfam⟩ := hroot i familyId (Pc.family_of_sweeping hsweep)
    obtain ⟨t', ht', hfam', _⟩ := (Revoked.updateWhere _ g.now _).kept t ht
    rw [hstore]
    exact ⟨t', ht', hfam'.trans hfam⟩
  · intro t ht hfam hnone
    rw [hstore] at ht
    obtain ⟨t₀, _, hfam₀, _, hsame⟩ := mem_revoke ht
    obtain ⟨rfl, hout⟩ := hsame hnone
    simp [hfam, hnone] at hout
  · intro j hj
    by_cases hji : j = i
    · subst hji
      rw [hpc, hleft] at hj
      cases hj
    · exact hidle j (hother j hji ▸ hj)

/-- Token hashes are unique in every state a run reaches. -/
theorem uniqueHash_step {s s' : TokenPool ι} {a : ι × Gen}
    (hs : UniqueKey RefreshToken.tokenHash s.store.refreshTokens) (h : PoolStep env s a s') :
    UniqueKey RefreshToken.tokenHash s'.store.refreshTokens := by
  obtain ⟨i, g⟩ := a
  obtain ⟨hfresh, pc, hstep, _, _⟩ := h.cases
  rcases hstep.rows with hrev | ⟨user, f, device, _, _, hrows⟩
  · rw [UniqueKey, hrev.hashes]
    exact hs
  · rw [hrows]
    exact hs.insert fun t ht => (hfresh t ht).2.1

/-- A `rotate` that can only be turned away. -/
def Pc.TurnedAway (presentedToken : JsString) (pc : Pc) : Prop :=
  (∃ device, pc = .start (.rotate presentedToken device)) ∨
    (∃ familyId, pc = .rejecting familyId) ∨ ∃ e, pc = .done (.error e)

/-- A `rotate` of a revoked token stays turned away. -/
theorem Pc.TurnedAway.step {presentedToken : JsString} (hpc : pc.TurnedAway presentedToken)
    (hunique : UniqueKey RefreshToken.tokenHash db.refreshTokens)
    (hrevoked : ∃ t ∈ db.refreshTokens, t.tokenHash = hash presentedToken ∧ t.revokedAt ≠ none)
    (h : Step env g db pc pc' db') : pc'.TurnedAway presentedToken := by
  obtain ⟨t, ht, hhash, hnone⟩ := hrevoked
  rcases hpc with ⟨device, rfl⟩ | ⟨f, rfl⟩ | ⟨e, rfl⟩
  · cases h with
    | refuse _ e _ => exact .inr (.inr ⟨e, rfl⟩)
    | reject found _ => exact .inr (.inl ⟨_, rfl⟩)
    | check found unrevoked _ =>
        obtain ⟨hmem, hfound⟩ := Db.mem_of_findRefreshTokenWithUser found
        rw [hunique.eq_of_key_eq hmem ht (hfound.trans hhash.symm)] at unrevoked
        exact absurd unrevoked hnone
    | insert origin _ _ => rcases origin with horigin | ⟨horigin, _⟩ <;> cases horigin
  · cases h with
    | refuse _ e _ => exact .inr (.inr ⟨e, rfl⟩)
    | rejectSweep _ => exact .inr (.inr ⟨_, rfl⟩)
    | insert origin _ _ => rcases origin with horigin | ⟨horigin, _⟩ <;> cases horigin
  · cases h with
    | refuse _ e _ => exact .inr (.inr ⟨e, rfl⟩)
    | stay _ => exact .inr (.inr ⟨e, rfl⟩)
    | insert origin _ _ => rcases origin with horigin | ⟨horigin, _⟩ <;> cases horigin

/-- A dead family beside a call that presents one of its tokens. -/
structure DeadFor (familyId : JsString) (ts : List RefreshToken) (j : ι)
    (presentedToken : JsString) (s : TokenPool ι) : Prop where
  dead : Dead familyId ts s
  unique : UniqueKey RefreshToken.tokenHash s.store.refreshTokens
  presented : ∃ t ∈ s.store.refreshTokens,
    t.familyId = familyId ∧ t.tokenHash = hash presentedToken
  turnedAway : (s.thread j).TurnedAway presentedToken

theorem DeadFor.step {s s' : TokenPool ι} {a : ι × Gen} {familyId : JsString}
    {ts : List RefreshToken} {j : ι} {presentedToken : JsString}
    (hs : DeadFor familyId ts j presentedToken s) (h : PoolStep env s a s') :
    DeadFor familyId ts j presentedToken s' := by
  obtain ⟨i, g⟩ := a
  refine ⟨hs.dead.step h, uniqueHash_step hs.unique h, ?_, ?_⟩
  · obtain ⟨_, pc, hstep, _, _⟩ := h.cases
    obtain ⟨t, ht, hfam, hhash⟩ := hs.presented
    rcases hstep.rows with hrev | ⟨user, f, device, _, _, hrows⟩
    · obtain ⟨t', ht', hfam', hhash'⟩ := hrev.kept t ht
      exact ⟨t', ht', hfam'.trans hfam, hhash'.trans hhash⟩
    · exact ⟨t, hrows ▸ List.mem_append_left _ ht, hfam, hhash⟩
  · obtain ⟨_, pc, hstep, hpc, hother⟩ := h.cases
    by_cases hji : j = i
    · subst hji
      rw [hpc]
      obtain ⟨t, ht, hfam, hhash⟩ := hs.presented
      exact hs.turnedAway.step hs.unique ⟨t, ht, hhash, hs.dead.revoked t ht hfam⟩ hstep
    · rw [hother j hji]
      exact hs.turnedAway

/-- **Revocation is final where it is quiescent.**  Take any run whose steps are `Quiescent`.
Once a call has revoked a family, the family never again has an unrevoked token, and no `rotate`
of one of its tokens that begins afterwards succeeds. -/
theorem revocation_final {s₀ s₁ s₂ s₃ : TokenPool ι} {before after : List (ι × Gen)} {i : ι}
    {g : Gen} {familyId : JsString} (h₀ : Initial s₀)
    (hbefore : Run (Guarded (PoolStep env) Quiescent) s₀ before s₁)
    (hsweep : (s₁.thread i).sweeping = some familyId)
    (hstep : Guarded (PoolStep env) Quiescent s₁ (i, g) s₂)
    (hafter : Run (Guarded (PoolStep env) Quiescent) s₂ after s₃) :
    (∀ t ∈ s₃.store.refreshTokens, t.familyId = familyId → t.revokedAt ≠ none) ∧
    ∀ j presentedToken device, s₂.thread j = .start (.rotate presentedToken device) →
      (∃ t ∈ s₃.store.refreshTokens, t.familyId = familyId ∧ t.tokenHash = hash presentedToken) →
      ∀ tokens, s₃.thread j ≠ .done (.ok tokens) := by
  have hroot : Rooted s₁ :=
    hbefore.invariant (P := Rooted) (fun _ _ _ hs hst => hs.step hst.1) h₀.rooted
  have hunique : UniqueKey RefreshToken.tokenHash s₁.store.refreshTokens :=
    hbefore.invariant (P := fun s => UniqueKey RefreshToken.tokenHash s.store.refreshTokens)
      (fun _ _ _ hs hst => uniqueHash_step hs hst.1) (by simp [UniqueKey, h₀.tokens])
  have hdead₂ := Dead.of_sweep hroot hsweep hstep
  have hdead : Dead familyId s₂.store.refreshTokens s₃ :=
    hafter.invariant (P := Dead familyId s₂.store.refreshTokens)
      (fun _ _ _ hs hst => hs.step hst.1) hdead₂
  refine ⟨hdead.revoked, ?_⟩
  rintro j presentedToken device hstart ⟨t, ht, hfam, hhash⟩ tokens hdone
  obtain ⟨t₀, ht₀, hfam₀, hhash₀⟩ := hdead.closed t ht hfam
  have hfor₂ : DeadFor familyId s₂.store.refreshTokens j presentedToken s₂ :=
    ⟨hdead₂, uniqueHash_step hunique hstep.1, ⟨t₀, ht₀, hfam₀, hhash₀.trans hhash⟩,
      .inl ⟨device, hstart⟩⟩
  have hfor : DeadFor familyId s₂.store.refreshTokens j presentedToken s₃ :=
    hafter.invariant (P := DeadFor familyId s₂.store.refreshTokens j presentedToken)
      (fun _ _ _ hs hst => hs.step hst.1) hfor₂
  rcases hfor.turnedAway with ⟨_, h⟩ | ⟨_, h⟩ | ⟨_, h⟩ <;> rw [h] at hdone <;> cases hdone

end Pools

/-! ### Schedules -/

namespace Schedules

open Samples

/-- A login, two rotations of the token it issues, and a logout with it. -/
def requests : Fin 4 → Request
  | 0 => .issueForUser user device
  | 1 => .rotate (js "t0") device
  | 2 => .rotate (js "t0") device
  | 3 => .revoke (js "t0")

def start : TokenPool (Fin 4) := ⟨Demo.world.db, fun i => .start (requests i)⟩

theorem start_initial : Initial start := ⟨rfl, fun i => ⟨requests i, rfl⟩⟩

def play (steps : List (Fin 4 × Gen)) : TokenPool (Fin 4) :=
  steps.foldl (fun s a => s.advance (step env a.2) a.1) start

theorem poolStep_snoc {steps : List (Fin 4 × Gen)} {a : Fin 4 × Gen}
    (hfresh : Fresh a.2 (play steps).store) :
    PoolStep env (play steps) a (play (steps ++ [a])) := by
  refine ⟨hfresh, ?_⟩
  rw [play, List.foldl_append]
  rfl

theorem run_snoc {steps : List (Fin 4 × Gen)} (a : Fin 4 × Gen)
    (hrun : Run (PoolStep env) start steps (play steps)) (hfresh : Fresh a.2 (play steps).store) :
    Run (PoolStep env) start (steps ++ [a]) (play (steps ++ [a])) :=
  hrun.snoc (poolStep_snoc hfresh)

/-- The two rotations one after the other. -/
def inTurn : List (Fin 4 × Gen) :=
  [(0, first), (1, second), (1, second), (1, second), (2, third), (2, third)]

/-- Both rotations pass the check before either revokes. -/
def twoRotations : List (Fin 4 × Gen) :=
  [(0, first), (1, second), (2, second), (1, second), (2, second), (1, second), (2, third)]

/-- The rotation passes its check, the logout revokes the family, the rotation goes on. -/
def lateSuccessor : List (Fin 4 × Gen) :=
  [(0, first), (1, second), (3, second), (3, second), (1, second), (1, second)]

/-- A login, the logout in full, then a rotation. -/
def logoutFirst : List (Fin 4 × Gen) :=
  [(0, first), (3, second), (3, second), (1, second), (1, second)]

theorem run_guarded_snoc {G : TokenPool (Fin 4) → Fin 4 × Gen → Prop}
    {steps : List (Fin 4 × Gen)} (a : Fin 4 × Gen)
    (hrun : Run (Guarded (PoolStep env) G) start steps (play steps))
    (h : Fresh a.2 (play steps).store ∧ G (play steps) a) :
    Run (Guarded (PoolStep env) G) start (steps ++ [a]) (play (steps ++ [a])) :=
  hrun.snoc ⟨poolStep_snoc h.1, h.2⟩

end Schedules

open Samples Schedules in
theorem singleUse_in_turn : SingleUse (play inTurn) := by
  have h₂ := run_guarded_snoc (G := Exclusive) (1, second)
    (run_guarded_snoc (0, first) .nil (by decide)) (by decide)
  have h₄ := run_guarded_snoc (1, second) (run_guarded_snoc (1, second) h₂ (by decide)) (by decide)
  have h₆ := run_guarded_snoc (2, third) (run_guarded_snoc (2, third) h₄ (by decide)) (by decide)
  exact singleUse_of_exclusive start_initial h₆

open Samples Schedules in
theorem revocation_final_logout_first :
    ¬∃ t ∈ (play logoutFirst).store.refreshTokens, t.familyId = js "t0" ∧ t.revokedAt = none := by
  have hbefore := run_guarded_snoc (G := Quiescent) (3, second)
    (run_guarded_snoc (0, first) .nil (by decide)) (by decide)
  have hstep : Guarded (PoolStep env) Quiescent (play [(0, first), (3, second)]) (3, second)
      (play [(0, first), (3, second), (3, second)]) :=
    ⟨poolStep_snoc (by decide), by decide⟩
  have hafter : Run (Guarded (PoolStep env) Quiescent) (play [(0, first), (3, second), (3, second)])
      [(1, second), (1, second)] (play logoutFirst) := by
    refine (Run.nil.snoc (t := play [(0, first), (3, second), (3, second)])
      (u := play [(0, first), (3, second), (3, second), (1, second)]) (a := (1, second)) ?_).snoc ?_
    · exact ⟨poolStep_snoc (by decide), by decide⟩
    · exact ⟨poolStep_snoc (by decide), by decide⟩
  have hsweep : ((play [(0, first), (3, second)]).thread 3).sweeping = some (js "t0") := by decide
  rintro ⟨t, ht, hfam, hnone⟩
  exact (revocation_final start_initial hbefore hsweep hstep hafter).1 t ht hfam hnone

open Samples Schedules in
/-- Two rotations of one token leave two usable tokens in its family. -/
theorem two_rotations_two_tokens :
    Initial start ∧ Run (PoolStep env) start twoRotations (play twoRotations) ∧
      ¬SingleUse (play twoRotations) := by
  refine ⟨start_initial, ?_, ?_⟩
  · have h₁ := run_snoc (0, first) .nil (by decide)
    have h₃ := run_snoc (2, second) (run_snoc (1, second) h₁ (by decide)) (by decide)
    have h₅ := run_snoc (2, second) (run_snoc (1, second) h₃ (by decide)) (by decide)
    exact run_snoc (2, third) (run_snoc (1, second) h₅ (by decide)) (by decide)
  · intro h
    have htwo : ∃ t ∈ (play twoRotations).store.refreshTokens,
        ∃ t' ∈ (play twoRotations).store.refreshTokens,
          usable 0 t ∧ usable 0 t' ∧ t.familyId = t'.familyId ∧ t ≠ t' := by decide
    obtain ⟨t, ht, t', ht', hu, hu', hfam, hne⟩ := htwo
    exact hne (h 0 t ht t' ht' hu hu' hfam)

open Samples Schedules in
/-- A rotation that passed its check leaves an unrevoked token in a family that a logout revoked
in between. -/
theorem successor_after_logout :
    Initial start ∧ Run (PoolStep env) start lateSuccessor (play lateSuccessor) ∧
      ((play (lateSuccessor.take 3)).thread 3).sweeping = some (js "t0") ∧
      (play (lateSuccessor.take 4)).thread 3 = .done (.ok none) ∧
      ∃ t ∈ (play lateSuccessor).store.refreshTokens,
        t.familyId = js "t0" ∧ t.revokedAt = none := by
  refine ⟨start_initial, ?_, by decide, by decide, by decide⟩
  have h₂ := run_snoc (1, second) (run_snoc (0, first) .nil (by decide)) (by decide)
  have h₄ := run_snoc (3, second) (run_snoc (3, second) h₂ (by decide)) (by decide)
  exact run_snoc (1, second) (run_snoc (1, second) h₄ (by decide)) (by decide)

end TokenService

end PmSaas
