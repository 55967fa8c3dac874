import PmSaas.Auth.TokenService
import PmSaas.Lib.TransitionSystem
import PmSaas.Types.Schemas

/-!
# `api.ts` and `providers.tsx`: refreshing from several tabs

`refreshAccessToken` keeps one refresh round-trip per page, and the start-up request of `Providers`
is over before any other request of its page is made; but the tabs of a browser share the cookie
jar.  A tab that sends the cookie while another tab's refresh is under way sends the cookie that is
being consumed, and whichever of the two is looked up after that is taken for a thief's: the family
is revoked (`second_tab_logs_out`).

* `Browser` is the tabs, their jar, the server's database and a ledger of the families in which
  `rotate` has detected a reuse;
* `no_reuse_of_oneByOne` — in every run in which no tab sends the cookie while another tab's
  refresh is under way, no reuse is ever detected.
-/

namespace PmSaas

open Table TransitionSystem

theorem Db.found_of_findRefreshTokenWithUser {db : Db} {tokenHash : Sha256}
    {existing : RefreshToken} {user : AuthUser}
    (h : db.findRefreshTokenWithUser tokenHash = some (existing, user)) :
    db.findRefreshToken tokenHash = some existing ∧ ∃ u ∈ db.users, u.id = user.sub := by
  obtain ⟨t, ht, hmap⟩ := Option.bind_eq_some_iff.1 h
  obtain ⟨u, hu, heq⟩ := Option.map_eq_some_iff.1 hmap
  cases heq
  exact ⟨ht, u, List.mem_of_find?_eq_some hu, rfl⟩

namespace TokenService

/-- A refresh that presented a cookie and has been neither refused nor received. -/
def Pc.underway : Pc → Bool
  | .start _ | .consuming _ _ _ | .creating _ _ _ | .done (.ok _) => true
  | .rejecting _ | .revoking _ | .done (.error _) => false

/-- The family in which the lookup of a `rotate` finds a token that was revoked before it
expired. -/
def Pc.reuse (g : Gen) (db : Db) : Pc → Option JsString
  | .start (.rotate presentedToken _) =>
      (db.findRefreshTokenWithUser (hash presentedToken)).bind fun (existing, _) =>
        if existing.revokedAt.isSome && !(existing.expiresAt < g.now) then some existing.familyId
        else none
  | _ => none

end TokenService

/-- `AuthController.refresh` up to its first Prisma call. -/
def AuthController.refresh (cookie : Option JsString) (device : DeviceInfo) : TokenService.Pc :=
  match truthy cookie with
  | none => .done (.error (.unauthorized (js "No refresh token")))
  | some token => .start (.rotate token device)

open TokenService

/-- Who awaits the answer of a `POST /auth/refresh`. -/
inductive Caller where
  /-- The start-up `request` of `Providers`, and whether it may retry. -/
  | providers (retry : Bool)
  /-- `refreshAccessToken`, and whether it is the start-up request that awaits it. -/
  | refreshAccessToken (starting : Bool)
  deriving DecidableEq

inductive Tab where
  /-- The page is mounted and `refreshing` is `null`. -/
  | ready
  /-- About to `fetch`. -/
  | due (caller : Caller)
  /-- The `fetch` is outstanding: the call it made stands at `pc`. -/
  | waiting (caller : Caller) (pc : Pc)
  deriving DecidableEq

def Tab.pc : Tab → Option Pc
  | .waiting _ pc => some pc
  | _ => none

/-- What the page does next when its refresh is answered. -/
def Caller.resume : Caller → Except Exn (Option IssuedTokens) → Tab
  | .providers true, .error (.unauthorized _) => .due (.refreshAccessToken true)
  | .refreshAccessToken true, .ok _ => .due (.providers false)
  | _, _ => .ready

/-- `Set-Cookie`. -/
def storeCookie (answer : Except Exn (Option IssuedTokens)) (jar : Option JsString) :
    Option JsString :=
  match answer with
  | .ok (some tokens) => some tokens.refreshToken
  | _ => jar

structure Browser (τ : Type*) where
  db : Db
  /-- The server's clock. -/
  now : Date
  /-- The refresh cookie. -/
  jar : Option JsString
  tab : τ → Tab
  /-- The families in which `rotate` has detected a reuse. -/
  reused : List JsString

inductive BrowserAction (τ : Type*) where
  /-- The page is loaded and `Providers` starts up. -/
  | load (i : τ)
  /-- A request of the page is answered 401. -/
  | unauthorized (i : τ)
  /-- The refresh is sent with the cookie of the moment. -/
  | send (i : τ) (device : DeviceInfo)
  /-- The server makes the next Prisma call of the tab's refresh. -/
  | serve (i : τ) (g : Gen)
  /-- The answer arrives and its cookie is stored. -/
  | receive (i : τ)
  /-- The browser drops the cookie, as it does when it expires. -/
  | drop

namespace Browser

variable {τ : Type*} [DecidableEq τ] {env : Env}

def setTab (s : Browser τ) (i : τ) (tab : Tab) : Browser τ :=
  { s with tab := Function.update s.tab i tab }

@[simp] theorem setTab_self (s : Browser τ) (i : τ) (tab : Tab) : (s.setTab i tab).tab i = tab :=
  Function.update_self ..

@[simp] theorem setTab_of_ne (s : Browser τ) {i j : τ} (tab : Tab) (h : j ≠ i) :
    (s.setTab i tab).tab j = s.tab j :=
  Function.update_of_ne h ..

def next (env : Env) (s : Browser τ) : BrowserAction τ → Browser τ
  | .load i => s.setTab i (.due (.providers true))
  | .unauthorized i =>
      -- `refreshing ??=`
      match s.tab i with
      | .ready => s.setTab i (.due (.refreshAccessToken false))
      | _ => s
  | .send i device =>
      match s.tab i with
      | .due caller => s.setTab i (.waiting caller (AuthController.refresh s.jar device))
      | _ => s
  | .serve i g =>
      match s.tab i with
      | .waiting caller pc =>
          { db := (step env g pc s.db).2
            now := g.now
            jar := s.jar
            tab := Function.update s.tab i (.waiting caller (step env g pc s.db).1)
            reused := s.reused ++ (pc.reuse g s.db).toList }
      | _ => s
  | .receive i =>
      match s.tab i with
      | .waiting caller (.done answer) =>
          { s.setTab i (caller.resume answer) with jar := storeCookie answer s.jar }
      | _ => s
  | .drop => { s with jar := none }

/-- Time passes, generated values do not collide with stored ones, and a page is not left with its
refresh outstanding. -/
def Enabled (s : Browser τ) : BrowserAction τ → Prop
  | .load i => (s.tab i).pc = none
  | .serve _ g => s.now ≤ g.now ∧ Fresh g s.db
  | _ => True

/-- The condition on a step: the cookie is not sent while the refresh of another tab is under
way. -/
def OneByOne (s : Browser τ) : BrowserAction τ → Prop
  | .send _ _ => truthy s.jar ≠ none → ∀ j, ∀ pc ∈ (s.tab j).pc, pc.underway = false
  | _ => True

instance (s : Browser τ) : ∀ a, Decidable (s.Enabled a)
  | .load _ => inferInstanceAs (Decidable (_ = _))
  | .serve _ _ => inferInstanceAs (Decidable (_ ∧ _))
  | .unauthorized _ | .send _ _ | .receive _ | .drop => isTrue trivial

instance [Fintype τ] (s : Browser τ) : ∀ a, Decidable (s.OneByOne a)
  | .send _ _ => inferInstanceAs (Decidable (_ → ∀ _, ∀ _ ∈ _, _))
  | .load _ | .unauthorized _ | .serve _ _ | .receive _ | .drop => isTrue trivial

end Browser

/-- One step of a tab or of the server. -/
abbrev BrowserStep {τ : Type*} [DecidableEq τ] (env : Env) :
    Browser τ → BrowserAction τ → Browser τ → Prop :=
  Steps Browser.Enabled (Browser.next env)

/-! ### Cookies and their rows -/

namespace Browser

variable {τ : Type*}

/-- The cookie's token has expired. -/
def Lapsed (s : Browser τ) (cookie : Option JsString) : Prop :=
  ∀ token ∈ cookie, ∀ t ∈ s.db.findRefreshToken (TokenService.hash token), t.expiresAt < s.now

/-- The cookie's token has not been revoked before it expired. -/
def Presentable (s : Browser τ) (cookie : Option JsString) : Prop :=
  ∀ token ∈ cookie, ∀ t ∈ s.db.findRefreshToken (TokenService.hash token),
    t.revokedAt = none ∨ t.expiresAt < s.now

instance (s : Browser τ) (cookie : Option JsString) : Decidable (s.Presentable cookie) :=
  inferInstanceAs (Decidable (∀ _ ∈ _, ∀ _ ∈ _, _))

/-- What the point of a refresh says of the jar and the database. -/
def Holds (s : Browser τ) : Pc → Prop
  | .start (.rotate token _) => s.Presentable (some token) ∧ ∀ cookie ∈ s.jar, cookie = token
  | .rejecting _ => s.Lapsed s.jar
  | .consuming existing user _ =>
      existing ∈ s.db.refreshTokens ∧ ∃ u ∈ s.db.users, u.id = user.sub
  | .creating user _ _ => ∃ u ∈ s.db.users, u.id = user.sub
  | .done (.ok (some tokens)) => s.Presentable (some tokens.refreshToken)
  | .done (.error _) => True
  | _ => False

/-- No reuse has been detected, at most one refresh is under way, and the cookie can be presented
when none is. -/
structure Orderly (s : Browser τ) : Prop where
  unused : s.reused = []
  sole : ∀ i j pc pc', (s.tab i).pc = some pc → (s.tab j).pc = some pc' →
    pc.underway = true → pc'.underway = true → i = j
  holds : ∀ i pc, (s.tab i).pc = some pc → s.Holds pc
  refused : ∀ i j familyId pc, (s.tab i).pc = some (.rejecting familyId) →
    (s.tab j).pc = some pc → pc.underway = true →
      ∃ token device, pc = .start (.rotate token device) ∧ s.Lapsed (some token)
  quiet : (∀ i pc, (s.tab i).pc = some pc → pc.underway = false) → s.Presentable s.jar

/-- The honest user's cookie is as the server last set it, and no refresh is outstanding. -/
structure Start (s : Browser τ) : Prop where
  unused : s.reused = []
  tabs : ∀ i, (s.tab i).pc = none
  jar : s.Presentable s.jar

theorem Lapsed.presentable {s : Browser τ} {cookie : Option JsString} (h : s.Lapsed cookie) :
    s.Presentable cookie :=
  fun token htoken t ht => .inr (h token htoken t ht)

theorem Start.orderly {s : Browser τ} (h : s.Start) : s.Orderly := by
  have hnone : ∀ i pc, (s.tab i).pc ≠ some pc := by
    intro i pc hpc
    rw [h.tabs i] at hpc
    cases hpc
  refine ⟨h.unused, ?_, ?_, ?_, fun _ => h.jar⟩
  · intro i j pc pc' hi
    exact absurd hi (hnone i pc)
  · intro i pc hi
    exact absurd hi (hnone i pc)
  · intro i j f pc hi
    exact absurd hi (hnone i _)

/-- Revoking tokens does not change when they expire. -/
theorem Lapsed.revoked {s : Browser τ} {cookie : Option JsString} (h : s.Lapsed cookie)
    (familyId : JsString) (now : Date) :
    ({ s with db := s.db.revokeFamily familyId now } : Browser τ).Lapsed cookie := by
  intro token htoken t ht
  have hfind := find?_updateWhere (t := s.db.refreshTokens)
    (p := fun t => t.familyId == familyId && t.revokedAt.isNone) (f := RefreshToken.revoke now)
    (g := fun t => t.tokenHash == TokenService.hash token) fun _ _ _ => rfl
  obtain ⟨old, hold, rfl⟩ := Option.map_eq_some_iff.1 (hfind.symm.trans ht)
  have hexpired := h token htoken old hold
  split
  · exact hexpired
  · exact hexpired

/-! ### One step at a time -/

section Steps

variable {s : Browser τ} {g : Gen} {i : τ} {pc : Pc}

/-- Once its token is found usable, a refresh is alone but for refused ones that are answered. -/
theorem Orderly.alone (h : s.Orderly) (hi : (s.tab i).pc = some pc) (hunderway : pc.underway = true)
    (hrejecting : ∀ j familyId, (s.tab j).pc ≠ some (.rejecting familyId)) :
    ∀ j, j ≠ i → ∀ pc', (s.tab j).pc = some pc' → ∃ e, pc' = .done (.error e) := by
  intro j hj pc' hpc'
  have hnot : pc'.underway ≠ true := fun hu => hj (h.sole j i pc' pc hpc' hi hu hunderway)
  have hholds := h.holds j pc' hpc'
  cases pc' with
  | rejecting f => exact absurd hpc' (hrejecting j f)
  | revoking f => exact hholds.elim
  | done answer =>
      cases answer with
      | error e => exact ⟨e, rfl⟩
      | ok tokens => exact absurd rfl hnot
  | _ => exact absurd rfl hnot

theorem Orderly.not_rejecting (h : s.Orderly) (hi : (s.tab i).pc = some pc)
    (hunderway : pc.underway = true) (hpast : ∀ request, pc ≠ .start request) (j : τ)
    (familyId : JsString) : (s.tab j).pc ≠ some (.rejecting familyId) := by
  intro hj
  obtain ⟨token, device, hstart, _⟩ := h.refused j i familyId pc hj hi hunderway
  exact hpast _ hstart

/-- A state in which every other tab has been refused and answered. -/
theorem Orderly.of_alone (hunused : s.reused = [])
    (hothers : ∀ j, j ≠ i → ∀ pc, (s.tab j).pc = some pc → ∃ e, pc = .done (.error e))
    (hholds : ∀ pc, (s.tab i).pc = some pc → s.Holds pc)
    (hquiet : (∀ pc, (s.tab i).pc = some pc → pc.underway = false) → s.Presentable s.jar) :
    s.Orderly := by
  have honly : ∀ j pc, (s.tab j).pc = some pc → pc.underway = true → j = i := by
    intro j pc hj hu
    by_contra hne
    obtain ⟨e, rfl⟩ := hothers j hne pc hj
    cases hu
  refine ⟨hunused, ?_, ?_, ?_, fun hnone => hquiet fun pc hpc => hnone i pc hpc⟩
  · intro j k pc pc' hj hk hu hu'
    rw [honly j pc hj hu, honly k pc' hk hu']
  · intro j pc hj
    by_cases hji : j = i
    · rw [hji] at hj
      exact hholds pc hj
    · obtain ⟨e, rfl⟩ := hothers j hji pc hj
      trivial
  · intro j k f pc hj hk hu
    have hki := honly k pc hk hu
    have hji : j = i := by
      by_contra hne
      obtain ⟨e, he⟩ := hothers j hne _ hj
      cases he
    rw [hji] at hj
    rw [hki, hj] at hk
    cases hk
    cases hu

/-- A refresh is refused, or a tab without one goes on. -/
theorem Orderly.leave [DecidableEq τ] (h : s.Orderly) (tab : Tab)
    (htab : ∀ pc, tab.pc = some pc → pc.underway = false ∧ s.Holds pc)
    (hrefuse : ∀ familyId, tab.pc = some (.rejecting familyId) →
      ∀ j, j ≠ i → ∀ pc, (s.tab j).pc = some pc → pc.underway = false)
    (hjar : (∀ j, j ≠ i → ∀ pc, (s.tab j).pc = some pc → pc.underway = false) →
      s.Presentable s.jar) : (s.setTab i tab).Orderly := by
  have hback : ∀ j pc, ((s.setTab i tab).tab j).pc = some pc →
      j = i ∧ tab.pc = some pc ∨ j ≠ i ∧ (s.tab j).pc = some pc := by
    intro j pc hj
    by_cases hji : j = i
    · subst hji
      rw [setTab_self] at hj
      exact .inl ⟨rfl, hj⟩
    · rw [setTab_of_ne s tab hji] at hj
      exact .inr ⟨hji, hj⟩
  have hunder : ∀ j pc, ((s.setTab i tab).tab j).pc = some pc → pc.underway = true →
      j ≠ i ∧ (s.tab j).pc = some pc := by
    intro j pc hj hu
    rcases hback j pc hj with ⟨_, hnew⟩ | hold
    · rw [(htab pc hnew).1] at hu
      cases hu
    · exact hold
  refine ⟨h.unused, ?_, ?_, ?_, ?_⟩
  · intro j k pc pc' hj hk hu hu'
    exact h.sole j k pc pc' (hunder j pc hj hu).2 (hunder k pc' hk hu').2 hu hu'
  · intro j pc hj
    rcases hback j pc hj with ⟨_, hnew⟩ | ⟨_, hold⟩
    · exact (htab pc hnew).2
    · exact h.holds j pc hold
  · intro j k f pc hj hk hu
    obtain ⟨hki, hk'⟩ := hunder k pc hk hu
    rcases hback j _ hj with ⟨_, hnew⟩ | ⟨_, hold⟩
    · rw [hrefuse f hnew k hki pc hk'] at hu
      cases hu
    · exact h.refused j k f pc hold hk' hu
  · intro hnone
    refine hjar fun j hj pc hpc => hnone j pc ?_
    rw [setTab_of_ne s tab hj]
    exact hpc

/-- A tab without a refresh under way goes on. -/
theorem Orderly.turn [DecidableEq τ] (h : s.Orderly) (tab : Tab)
    (htab : ∀ pc, tab.pc = some pc → ∃ e, pc = .done (.error e))
    (hi : ∀ pc, (s.tab i).pc = some pc → pc.underway = false) : (s.setTab i tab).Orderly := by
  refine h.leave tab ?_ ?_ ?_
  · intro pc hpc
    obtain ⟨e, rfl⟩ := htab pc hpc
    exact ⟨rfl, trivial⟩
  · intro f hf
    obtain ⟨e, he⟩ := htab _ hf
    cases he
  · intro hothers
    refine h.quiet fun j pc hj => ?_
    by_cases hji : j = i
    · rw [hji] at hj
      exact hi pc hj
    · exact hothers j hji pc hj

/-- The cookie is sent when no refresh is under way. -/
theorem Orderly.present [DecidableEq τ] (h : s.Orderly) {caller : Caller} {token : JsString}
    {device : DeviceInfo} (hjar : s.jar = some token)
    (hnone : ∀ j pc, (s.tab j).pc = some pc → pc.underway = false) :
    (s.setTab i (.waiting caller (.start (.rotate token device)))).Orderly := by
  have hback : ∀ j pc,
      ((s.setTab i (.waiting caller (.start (.rotate token device)))).tab j).pc = some pc →
      j = i ∧ pc = .start (.rotate token device) ∨ (s.tab j).pc = some pc := by
    intro j pc hj
    by_cases hji : j = i
    · subst hji
      rw [setTab_self] at hj
      cases hj
      exact .inl ⟨rfl, rfl⟩
    · rw [setTab_of_ne s _ hji] at hj
      exact .inr hj
  refine ⟨h.unused, ?_, ?_, ?_, fun hquiet => ?_⟩
  · intro j k pc pc' hj hk hu hu'
    rcases hback j pc hj with ⟨rfl, _⟩ | hj'
    · rcases hback k pc' hk with ⟨rfl, _⟩ | hk'
      · rfl
      · rw [hnone k pc' hk'] at hu'
        cases hu'
    · rw [hnone j pc hj'] at hu
      cases hu
  · intro j pc hj
    rcases hback j pc hj with ⟨_, rfl⟩ | hj'
    · refine ⟨hjar ▸ h.quiet hnone, fun cookie hcookie => ?_⟩
      exact Option.some.inj (hcookie.symm.trans hjar)
    · exact h.holds j pc hj'
  · intro j k f pc hj hk hu
    rcases hback j _ hj with ⟨_, hstart⟩ | hj'
    · cases hstart
    · rcases hback k pc hk with ⟨_, rfl⟩ | hk'
      · exact ⟨token, device, rfl, hjar ▸ h.holds j _ hj'⟩
      · rw [hnone k pc hk'] at hu
        cases hu
  · exact absurd (hquiet i _ (congrArg Tab.pc (setTab_self ..))) nofun

/-- Time passes. -/
theorem Orderly.later (h : s.Orderly) {now : Date} (hnow : s.now ≤ now) :
    ({ s with now := now } : Browser τ).Orderly := by
  have hlapsed : ∀ cookie, s.Lapsed cookie → ({ s with now := now } : Browser τ).Lapsed cookie :=
    fun cookie hc token htoken t ht => lt_of_lt_of_le (hc token htoken t ht) hnow
  have hpresentable : ∀ cookie, s.Presentable cookie →
      ({ s with now := now } : Browser τ).Presentable cookie :=
    fun cookie hc token htoken t ht =>
      (hc token htoken t ht).imp_right fun hlt => lt_of_lt_of_le hlt hnow
  refine ⟨h.unused, h.sole, ?_, ?_, fun hnone => hpresentable _ (h.quiet hnone)⟩
  · intro i pc hi
    have hholds := h.holds i pc hi
    unfold Holds at hholds ⊢
    split at hholds
    · exact ⟨hpresentable _ hholds.1, hholds.2⟩
    · exact hlapsed _ hholds
    · exact hholds
    · exact hholds
    · exact hpresentable _ hholds
    · trivial
    · exact hholds.elim
  · intro i j f pc hi hj hu
    obtain ⟨token, device, hstart, hexpired⟩ := h.refused i j f pc hi hj hu
    exact ⟨token, device, hstart, hlapsed _ hexpired⟩

theorem Orderly.reuse_none (h : s.Orderly) (hnow : s.now = g.now) (hi : (s.tab i).pc = some pc) :
    pc.reuse g s.db = none := by
  have hholds := h.holds i pc hi
  unfold Pc.reuse
  split
  · rename_i token device
    refine Option.bind_eq_none_iff.2 fun (existing, user) hfound => ?_
    have hrow := (Db.found_of_findRefreshTokenWithUser hfound).1
    refine if_neg fun hreuse => ?_
    simp only [Bool.and_eq_true, Bool.not_eq_true', decide_eq_false_iff_not] at hreuse
    rcases hholds.1 token rfl existing hrow with hlive | hexpired
    · rw [hlive] at hreuse
      exact absurd hreuse.1 nofun
    · exact hreuse.2 (hnow ▸ hexpired)
  · rfl

/-- The family sweep of a refused refresh. -/
theorem Orderly.sweep (h : s.Orderly) {familyId : JsString}
    (hi : (s.tab i).pc = some (.rejecting familyId)) (now : Date) :
    ({ s with db := s.db.revokeFamily familyId now } : Browser τ).Orderly := by
  refine ⟨h.unused, h.sole, ?_, ?_, fun _ => ((h.holds i _ hi).revoked familyId now).presentable⟩
  · intro j pc hj
    have hholds := h.holds j pc hj
    have hrefused := h.refused i j familyId pc hi hj
    cases pc with
    | start request =>
        obtain ⟨token, device, hstart, hexpired⟩ := hrefused rfl
        cases hstart
        exact ⟨(hexpired.revoked familyId now).presentable, hholds.2⟩
    | rejecting f => exact Lapsed.revoked hholds familyId now
    | revoking f => exact hholds.elim
    | done answer =>
        cases answer with
        | error e => trivial
        | ok tokens =>
            obtain ⟨token, device, hstart, _⟩ := hrefused rfl
            cases hstart
    | _ =>
        obtain ⟨token, device, hstart, _⟩ := hrefused rfl
        cases hstart
  · intro j k f pc hj hk hu
    obtain ⟨token, device, hstart, hexpired⟩ := h.refused j k f pc hj hk hu
    exact ⟨token, device, hstart, hexpired.revoked familyId now⟩

theorem Orderly.drop (h : s.Orderly) : ({ s with jar := none } : Browser τ).Orderly := by
  refine ⟨h.unused, h.sole, ?_, h.refused, fun _ => nofun⟩
  intro i pc hi
  have hholds := h.holds i pc hi
  unfold Holds at hholds ⊢
  split at hholds
  · exact ⟨hholds.1, nofun⟩
  · exact nofun
  · exact hholds
  · exact hholds
  · exact hholds
  · trivial
  · exact hholds.elim

end Steps

/-! ### The server's steps -/

section Server

variable [DecidableEq τ] {s : Browser τ} {env : Env} {g : Gen} {i : τ} {caller : Caller} {pc : Pc}

/-- The lookup of `rotate`. -/
theorem Orderly.lookup (h : s.Orderly) (hnow : s.now = g.now) {token : JsString}
    {device : DeviceInfo} (hi : (s.tab i).pc = some (.start (.rotate token device))) :
    ({ s.setTab i (.waiting caller (step env g (.start (.rotate token device)) s.db).1) with
      db := (step env g (.start (.rotate token device)) s.db).2 } : Browser τ).Orderly := by
  obtain ⟨hlive, hjar⟩ : s.Presentable (some token) ∧ ∀ cookie ∈ s.jar, cookie = token :=
    h.holds i _ hi
  have hothers : ∀ j, j ≠ i → ∀ pc, (s.tab j).pc = some pc → pc.underway = false := by
    intro j hj pc hpc
    by_contra hu
    exact hj (h.sole j i _ _ hpc hi (by simpa using hu) rfl)
  have hpresentable : s.Presentable s.jar :=
    fun cookie hcookie => hjar cookie hcookie ▸ hlive token rfl
  rw [step]
  cases hfound : s.db.findRefreshTokenWithUser (TokenService.hash token) with
  | none =>
      refine h.leave _ ?_ (fun _ _ => hothers) fun _ => hpresentable
      rintro pc ⟨⟩
      exact ⟨rfl, trivial⟩
  | some found =>
      obtain ⟨existing, user⟩ := found
      obtain ⟨hrow, howner⟩ := Db.found_of_findRefreshTokenWithUser hfound
      by_cases hreused : existing.revokedAt.isSome || existing.expiresAt < g.now
      · simp only [if_pos hreused]
        have hexpired : existing.expiresAt < s.now := by
          rcases hlive token rfl existing hrow with hnone | hexpired
          · rw [hnone] at hreused
            simpa [hnow] using hreused
          · exact hexpired
        refine h.leave _ ?_ (fun _ _ => hothers) fun _ => hpresentable
        rintro pc ⟨⟩
        refine ⟨rfl, fun cookie hcookie t ht => ?_⟩
        rw [hjar cookie hcookie, hrow] at ht
        cases ht
        exact hexpired
      · simp only [if_neg hreused]
        simp only [Bool.or_eq_true, not_or, decide_eq_true_eq] at hreused
        have hnone : ∀ j familyId, (s.tab j).pc ≠ some (.rejecting familyId) := by
          intro j f hj
          obtain ⟨token', device', hstart, hexpired⟩ := h.refused j i f _ hj hi rfl
          cases hstart
          exact hreused.2 (hnow ▸ hexpired token rfl existing hrow)
        refine Orderly.of_alone (i := i) h.unused ?_ ?_ ?_
        · intro j hj pc hpc
          rw [setTab_of_ne s _ hj] at hpc
          exact h.alone hi rfl hnone j hj pc hpc
        · intro pc hpc
          rw [setTab_self] at hpc
          cases hpc
          exact ⟨List.mem_of_find?_eq_some hrow, howner⟩
        · intro hquiet
          have hidle : Pc.underway (.consuming existing user device) = false :=
            hquiet _ (congrArg Tab.pc (setTab_self ..))
          cases hidle

/-- The revocation and the insertion of `rotate`. -/
theorem Orderly.goOn (h : s.Orderly) (hi : (s.tab i).pc = some pc) (hunderway : pc.underway = true)
    (hpast : ∀ request, pc ≠ .start request) {pc' : Pc} {db : Db}
    (hholds : ({ s with db := db } : Browser τ).Holds pc') (hunderway' : pc'.underway = true) :
    ({ s.setTab i (.waiting caller pc') with db := db } : Browser τ).Orderly := by
  have hself : ({ s.setTab i (.waiting caller pc') with db := db } : Browser τ).tab i =
      .waiting caller pc' := setTab_self ..
  refine Orderly.of_alone (i := i) h.unused ?_ ?_ ?_
  · intro j hj pc'' hpc
    have hpc' : ((s.setTab i (.waiting caller pc')).tab j).pc = some pc'' := hpc
    rw [setTab_of_ne s _ hj] at hpc'
    exact h.alone hi hunderway (h.not_rejecting hi hunderway hpast) j hj pc'' hpc'
  · intro pc'' hpc
    rw [hself] at hpc
    cases hpc
    exact hholds
  · intro hquiet
    rw [hquiet pc' (congrArg Tab.pc hself)] at hunderway'
    cases hunderway'

omit [DecidableEq τ] in
/-- A token that was just issued is found by its hash. -/
theorem find_newToken {db : Db} {user : AuthUser} {familyId : JsString} {device : DeviceInfo}
    {row : RefreshToken} (hfresh : Fresh g db)
    (hrow : (db.insertRefreshToken (newToken env g user familyId device)).findRefreshToken
      (TokenService.hash (randomToken g)) = some row) :
    row = newToken env g user familyId device := by
  have hnone : db.refreshTokens.find?
      (fun t => t.tokenHash == TokenService.hash (randomToken g)) = none :=
    List.find?_eq_none.2 fun t ht => by simpa using (hfresh t ht).2.1
  have hfind : (db.refreshTokens ++ [newToken env g user familyId device]).find?
      (fun t => t.tokenHash == TokenService.hash (randomToken g)) = some row := hrow
  rw [List.find?_append, hnone, Option.none_or] at hfind
  exact List.mem_singleton.1 (List.mem_of_find?_eq_some hfind)

theorem Orderly.serve (h : s.Orderly) (hnow : s.now = g.now) (hfresh : Fresh g s.db)
    (ht : s.tab i = .waiting caller pc) :
    ({ s.setTab i (.waiting caller (step env g pc s.db).1) with
      db := (step env g pc s.db).2 } : Browser τ).Orderly := by
  have hi : (s.tab i).pc = some pc := congrArg Tab.pc ht
  have hholds := h.holds i pc hi
  cases pc with
  | start request =>
      cases request with
      | rotate token device => exact h.lookup hnow hi
      | issueForUser user device => exact hholds.elim
      | revoke token => exact hholds.elim
  | rejecting familyId =>
      refine (h.sweep hi g.now).turn _ ?_ ?_
      · rintro pc ⟨⟩
        exact ⟨_, rfl⟩
      · intro pc hpc
        rw [hi] at hpc
        cases hpc
        rfl
  | consuming existing user device =>
      have hstep : step env g (.consuming existing user device) s.db =
          (.creating user existing.familyId device, s.db.markRevoked existing.id g.now) := by
        have hany : s.db.refreshTokens.any (·.id == existing.id) = true :=
          List.any_eq_true.2 ⟨existing, hholds.1, by simp⟩
        simp only [step, Db.revokeToken, if_pos hany]
      rw [hstep]
      exact h.goOn hi rfl (fun _ hstart => by cases hstart) hholds.2 rfl
  | creating user familyId device =>
      have hstep : step env g (.creating user familyId device) s.db =
          (.done (.ok (some (issued env g user))),
            s.db.insertRefreshToken (newToken env g user familyId device)) := by
        have howner : s.db.users.any (·.id == user.sub) = true := by
          obtain ⟨u, hu, hid⟩ := hholds
          exact List.any_eq_true.2 ⟨u, hu, by simpa using hid⟩
        rw [TokenService.step, createRefresh_fresh user familyId device hfresh, if_pos howner]
      rw [hstep]
      refine h.goOn hi rfl (fun _ hstart => by cases hstart) (fun token htoken t ht => ?_) rfl
      cases htoken
      rw [find_newToken hfresh ht]
      exact .inl rfl
  | revoking familyId => exact hholds.elim
  | done answer =>
      have hsame : s.setTab i (.waiting caller (.done answer)) = s := by
        rw [setTab, ← ht, Function.update_eq_self]
      rw [step, hsame]
      exact h

/-- The answer arrives. -/
theorem Orderly.receive (h : s.Orderly) {answer : Except Exn (Option IssuedTokens)}
    (ht : s.tab i = .waiting caller (.done answer)) :
    ({ s.setTab i (caller.resume answer) with jar := storeCookie answer s.jar } :
      Browser τ).Orderly := by
  have hi : (s.tab i).pc = some (.done answer) := congrArg Tab.pc ht
  have hresume : (caller.resume answer).pc = none := by
    unfold Caller.resume
    split <;> rfl
  have hholds := h.holds i _ hi
  cases answer with
  | error e =>
      refine h.turn _ ?_ ?_
      · intro pc hpc
        rw [hresume] at hpc
        cases hpc
      · intro pc hpc
        rw [hi] at hpc
        cases hpc
        rfl
  | ok tokens =>
      cases tokens with
      | none => exact hholds.elim
      | some tokens =>
          have hnone : (({ s.setTab i (caller.resume (.ok (some tokens))) with
              jar := some tokens.refreshToken } : Browser τ).tab i).pc = none :=
            (congrArg Tab.pc (setTab_self ..)).trans hresume
          refine Orderly.of_alone (i := i) h.unused ?_ ?_ fun _ => hholds
          · intro j hj pc hpc
            have hpc' : ((s.setTab i (caller.resume (.ok (some tokens)))).tab j).pc = some pc := hpc
            rw [setTab_of_ne s _ hj] at hpc'
            exact h.alone hi rfl (h.not_rejecting hi rfl nofun) j hj pc hpc'
          · intro pc hpc
            exact absurd (hnone.symm.trans hpc) nofun

theorem Orderly.step {s' : Browser τ} {a : BrowserAction τ} (h : s.Orderly)
    (hstep : Guarded (BrowserStep env) OneByOne s a s') : s'.Orderly := by
  obtain ⟨⟨henabled, rfl⟩, hguard⟩ := hstep
  cases a with
  | load i =>
      refine h.turn _ nofun fun pc hpc => ?_
      rw [henabled] at hpc
      cases hpc
  | unauthorized i =>
      rw [next]
      split
      · rename_i hready
        refine h.turn _ nofun fun pc hpc => ?_
        rw [hready] at hpc
        cases hpc
      · exact h
  | send i device =>
      rw [next]
      split
      · rename_i caller hdue
        unfold AuthController.refresh
        cases hcookie : truthy s.jar with
        | none =>
            refine h.turn _ ?_ fun pc hpc => ?_
            · rintro pc ⟨⟩
              exact ⟨_, rfl⟩
            · rw [hdue] at hpc
              cases hpc
        | some token =>
            have hjar : s.jar = some token := (Option.filter_eq_some_iff.1 hcookie).1
            refine h.present hjar ?_
            exact hguard (by rw [hcookie]; exact nofun)
      · exact h
  | serve i g =>
      rw [next]
      split
      · rename_i caller pc ht
        have hlater := h.later henabled.1
        have hreuse := hlater.reuse_none rfl (congrArg Tab.pc ht)
        simp only at hreuse
        rw [hreuse, Option.toList_none, List.append_nil]
        exact hlater.serve rfl henabled.2 ht
      · exact h
  | receive i =>
      rw [next]
      split
      · rename_i caller answer ht
        exact h.receive ht
      · exact h
  | drop => exact h.drop

end Server

end Browser

/-- **One refresh at a time is never taken for a theft.**  In every run in which no tab sends the
cookie while another tab's refresh is under way, `rotate` detects no reuse, and the cookie in the
jar has not been revoked before it expired whenever no refresh is under way. -/
theorem no_reuse_of_oneByOne {τ : Type*} [DecidableEq τ] {env : Env} {s t : Browser τ}
    {as : List (BrowserAction τ)} (hs : s.Start)
    (h : Run (Guarded (BrowserStep env) Browser.OneByOne) s as t) :
    t.reused = [] ∧
      ((∀ i pc, (t.tab i).pc = some pc → pc.underway = false) → t.Presentable t.jar) := by
  have horderly : t.Orderly := h.invariant (fun _ _ _ hs hstep => hs.step hstep) hs.orderly
  exact ⟨horderly.unused, horderly.quiet⟩

/-! ### Two tabs -/

namespace TwoTabs

open TokenService.Samples

/-- The user has logged in, and the cookie `t0` is in the jar. -/
def start : Browser (Fin 2) where
  db := (exec env (fun _ => first) (.issueForUser user device)
    { Db.empty with users := [Demo.user] }).2
  now := 0
  jar := some (js "t0")
  tab := fun _ => .ready
  reused := []

def play (as : List (BrowserAction (Fin 2))) : Browser (Fin 2) := as.foldl (Browser.next env) start

/-- One tab starts up, then the other, and later a request of the first is answered 401. -/
def inTurn : List (BrowserAction (Fin 2)) :=
  [.load 0, .load 1, .send 0 device, .serve 0 second, .serve 0 second, .serve 0 second, .receive 0,
    .send 1 device, .serve 1 third, .serve 1 third, .serve 1 third, .receive 1, .unauthorized 0]

/-- Both tabs are restored at once: the second refresh is looked up after the first is done. -/
def atOnce : List (BrowserAction (Fin 2)) :=
  [.load 0, .load 1, .send 0 device, .send 1 device, .serve 0 second, .serve 0 second,
    .serve 0 second, .serve 1 third, .serve 1 third, .receive 0, .receive 1]

theorem start_start : start.Start := ⟨rfl, fun _ => rfl, by decide⟩

end TwoTabs

open TwoTabs TokenService.Samples in
theorem no_reuse_in_turn :
    (play inTurn).reused = [] ∧
      ((∀ i pc, ((play inTurn).tab i).pc = some pc → pc.underway = false) →
        (play inTurn).Presentable (play inTurn).jar) :=
  no_reuse_of_oneByOne start_start
    (Along.guarded (show Along _ (Browser.next env) start inTurn by decide))

open TwoTabs TokenService.Samples in
/-- Two tabs that are restored at once log their honest user out: no token of the family is left
unrevoked, long before any expires. -/
theorem second_tab_logs_out :
    start.Start ∧ Run (BrowserStep env) start atOnce (play atOnce) ∧
      (play atOnce).reused = [js "t0"] ∧ (play atOnce).jar = some (js "t1") ∧
      ∀ t ∈ (play atOnce).db.refreshTokens,
        t.familyId = js "t0" ∧ t.revokedAt.isSome = true ∧ ¬t.expiresAt < (play atOnce).now := by
  refine ⟨start_start, Along.run (by decide), ?_, ?_, ?_⟩
  · decide
  · decide
  · decide

end PmSaas
