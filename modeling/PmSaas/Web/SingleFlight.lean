import PmSaas.Lib.TransitionSystem
import PmSaas.Types.Schemas

/-!
# `api.ts`: one refresh at a time

The requests of a page share `refreshing`, the promise of the refresh that is under way: the first
401 starts it, later ones wait for it, and its `finally` clears the slot.  A request is sent again
after a successful refresh, and then takes its answer as it comes.

* `ApiClient.next` is one turn of the event loop: the start of a request, a response, a body, a
  refresh that settles, or a request that goes on after its refresh;
* `SingleFlight.step`: the slot holds the one outstanding refresh after every turn;
* `single_flight`: over all orders of the turns, what a 401 to the first attempt of a request does.
-/

namespace PmSaas

open TransitionSystem

/-- A refresh of `refreshAccessToken`. -/
inductive Refresh where
  | unstarted
  /-- The `POST /auth/refresh` is sent. -/
  | fetching
  /-- The body of its response is awaited. -/
  | reading
  /-- What its promise was resolved with. -/
  | settled (accessToken : Option JsString)
  deriving DecidableEq, Repr

def Refresh.Outstanding : Refresh → Prop
  | fetching | reading => True
  | _ => False

/-- How a request ends. -/
inductive RequestEnd where
  | value
  | noContent
  | apiError (status : ℕ)
  | networkError
  | invalidBody
  deriving DecidableEq, Repr

/-- Where a request stands. -/
inductive Phase where
  | ready
  /-- The `fetch` is outstanding. -/
  | fetching (retry : Bool)
  /-- `await refreshAccessToken()`. -/
  | waiting (refresh : ℕ)
  /-- The body of an error is awaited. -/
  | failing (status : ℕ)
  | reading
  | done (result : RequestEnd)
  deriving DecidableEq, Repr

structure RequestCall where
  phase : Phase
  /-- The bearer token of each `fetch` of the request. -/
  sent : List (Option JsString)
  deriving DecidableEq, Repr

/-- The client of a tab: the token of `useAuthStore`, the slot, the refreshes by number, and the
requests. -/
structure ApiClient (ι : Type*) where
  accessToken : Option JsString
  refreshing : Option ℕ
  refresh : ℕ → Refresh
  /-- How many refreshes were started. -/
  started : ℕ
  call : ι → RequestCall

/-- A turn of the event loop. -/
inductive ClientTurn (ι : Type*) where
  | request (i : ι)
  | respond (i : ι) (status : ℕ)
  | reject (i : ι)
  | readBody (i : ι) (valid : Bool)
  /-- The request goes on after the refresh it awaits. -/
  | resume (i : ι)
  | refreshRespond (r : ℕ) (ok : Bool)
  | refreshReject (r : ℕ)
  | refreshBody (r : ℕ) (accessToken : Option JsString)
  /-- A login or a logout. -/
  | setAuth (accessToken : Option JsString)

namespace ApiClient

variable {ι : Type*}

/-- `refreshAccessToken`: the refresh to wait for, which is started if there is none. -/
def refreshAccessToken (s : ApiClient ι) : ℕ × ApiClient ι :=
  match s.refreshing with
  | some r => (r, s)
  | none => (s.started,
      { s with
        refreshing := some s.started
        refresh := Function.update s.refresh s.started .fetching
        started := s.started + 1 })

/-- `finally`. -/
def settle (s : ApiClient ι) (r : ℕ) (accessToken : Option JsString) : ApiClient ι :=
  { s with
    refreshing := none
    refresh := Function.update s.refresh r (.settled accessToken) }

variable [DecidableEq ι]

def setCall (s : ApiClient ι) (i : ι) (call : RequestCall) : ApiClient ι :=
  { s with call := Function.update s.call i call }

def setPhase (s : ApiClient ι) (i : ι) (phase : Phase) : ApiClient ι :=
  s.setCall i ⟨phase, (s.call i).sent⟩

/-- The `fetch` of a request, with the token of the moment. -/
def send (s : ApiClient ι) (i : ι) (retry : Bool) : ApiClient ι :=
  s.setCall i ⟨.fetching retry, (s.call i).sent ++ [truthy s.accessToken]⟩

/-- What follows a response that is not refreshed. -/
def answered (status : ℕ) : Phase :=
  if ¬(200 ≤ status ∧ status < 300) then .failing status
  else if status = 204 then .done .noContent
  else .reading

def next (s : ApiClient ι) : ClientTurn ι → ApiClient ι
  | .request i =>
      match (s.call i).phase with
      | .ready => s.send i true
      | _ => s
  | .respond i status =>
      match (s.call i).phase with
      | .fetching retry =>
          if status = 401 ∧ retry = true then
            s.refreshAccessToken.2.setPhase i (.waiting s.refreshAccessToken.1)
          else s.setPhase i (answered status)
      | _ => s
  | .reject i =>
      match (s.call i).phase with
      | .fetching _ => s.setPhase i (.done .networkError)
      | _ => s
  | .readBody i valid =>
      match (s.call i).phase with
      | .failing status => s.setPhase i (.done (.apiError status))
      | .reading => s.setPhase i (.done (if valid then .value else .invalidBody))
      | _ => s
  | .resume i =>
      match (s.call i).phase with
      | .waiting r =>
          match s.refresh r with
          | .settled accessToken =>
              match truthy accessToken with
              | some _ => s.send i false
              | none => s.setPhase i (answered 401)
          | _ => s
      | _ => s
  | .refreshRespond r ok =>
      match s.refresh r with
      | .fetching =>
          if ok then { s with refresh := Function.update s.refresh r .reading } else s.settle r none
      | _ => s
  | .refreshReject r =>
      match s.refresh r with
      | .fetching | .reading => s.settle r none
      | _ => s
  | .refreshBody r accessToken =>
      match s.refresh r with
      | .reading => { s.settle r accessToken with accessToken := accessToken }
      | _ => s
  | .setAuth accessToken => { s with accessToken := accessToken }

/-- A client before its first request. -/
structure Loaded (s : ApiClient ι) : Prop where
  refreshing : s.refreshing = none
  refresh : ∀ r, s.refresh r = .unstarted
  started : s.started = 0
  call : ∀ i, s.call i = ⟨.ready, []⟩

end ApiClient

abbrev ClientStep (ι : Type*) [DecidableEq ι] : ApiClient ι → ClientTurn ι → ApiClient ι → Prop :=
  Steps (fun _ _ => True) ApiClient.next

section SingleFlight

variable {ι : Type*} {s : ApiClient ι}

/-! ### What a turn does -/

/-- How a request goes on. -/
inductive RequestStep (s : ApiClient ι) : RequestCall → RequestCall → Prop
  | stay (c : RequestCall) : RequestStep s c c
  | start (sent : List (Option JsString)) :
      RequestStep s ⟨.ready, sent⟩ ⟨.fetching true, sent ++ [truthy s.accessToken]⟩
  | refresh (sent : List (Option JsString)) :
      RequestStep s ⟨.fetching true, sent⟩ ⟨.waiting s.refreshAccessToken.1, sent⟩
  | answer (retry : Bool) (status : ℕ) (sent : List (Option JsString)) :
      RequestStep s ⟨.fetching retry, sent⟩ ⟨ApiClient.answered status, sent⟩
  | reject (retry : Bool) (sent : List (Option JsString)) :
      RequestStep s ⟨.fetching retry, sent⟩ ⟨.done .networkError, sent⟩
  | fail (status : ℕ) (sent : List (Option JsString)) :
      RequestStep s ⟨.failing status, sent⟩ ⟨.done (.apiError status), sent⟩
  | read (result : RequestEnd) (sent : List (Option JsString)) :
      RequestStep s ⟨.reading, sent⟩ ⟨.done result, sent⟩
  | resend {r : ℕ} {accessToken : Option JsString} (token : JsString)
      (settled : s.refresh r = .settled accessToken) (fresh : truthy accessToken = some token)
      (sent : List (Option JsString)) :
      RequestStep s ⟨.waiting r, sent⟩ ⟨.fetching false, sent ++ [truthy s.accessToken]⟩
  | giveUp {r : ℕ} {accessToken : Option JsString} (settled : s.refresh r = .settled accessToken)
      (stale : truthy accessToken = none) (sent : List (Option JsString)) :
      RequestStep s ⟨.waiting r, sent⟩ ⟨.failing 401, sent⟩

theorem RequestStep.of_eq {c c' : RequestCall} {sent : List (Option JsString)} {phase : Phase}
    (hphase : c.phase = phase) (hsent : c.sent = sent) (h : RequestStep s ⟨phase, sent⟩ c') :
    RequestStep s c c' := by
  subst hphase hsent
  exact h

theorem ApiClient.refreshAccessToken_call (s : ApiClient ι) :
    s.refreshAccessToken.2.call = s.call := by
  unfold refreshAccessToken
  split <;> rfl

theorem ApiClient.answered_ne_waiting (status r : ℕ) : answered status ≠ .waiting r := by
  unfold answered
  split
  · nofun
  · split <;> nofun

theorem refresh_update {r : ℕ} (hr : (s.refresh r).Outstanding ∨ r = s.started) (new : Refresh)
    (r' : ℕ) : Function.update s.refresh r new r' = s.refresh r' ∨ (s.refresh r').Outstanding ∨
      r' = s.started := by
  by_cases heq : r' = r
  · subst heq
    exact .inr hr
  · exact .inl (Function.update_of_ne heq ..)

section Turns

variable [DecidableEq ι]

/-- How a client goes on: one of its requests does, or its outstanding refresh, or it gets another
token. -/
inductive ClientChange (s : ApiClient ι) : ApiClient ι → Prop
  | stay : ClientChange s s
  | request {i : ι} {c : RequestCall} (step : RequestStep s (s.call i) c)
      (free : ∀ r, c.phase ≠ .waiting r) : ClientChange s (s.setCall i c)
  | refresh {i : ι} (phase : (s.call i).phase = .fetching true) :
      ClientChange s (s.refreshAccessToken.2.setPhase i (.waiting s.refreshAccessToken.1))
  | reading {r : ℕ} (outstanding : (s.refresh r).Outstanding) :
      ClientChange s { s with refresh := Function.update s.refresh r .reading }
  | settled {r : ℕ} (outstanding : (s.refresh r).Outstanding) (accessToken : Option JsString) :
      ClientChange s (s.settle r accessToken)
  | stored {r : ℕ} (outstanding : (s.refresh r).Outstanding) (accessToken : Option JsString) :
      ClientChange s { s.settle r accessToken with accessToken := accessToken }
  | setAuth (accessToken : Option JsString) :
      ClientChange s { s with accessToken := accessToken }

/-- **What a turn does.** -/
theorem ApiClient.next_change (s : ApiClient ι) (turn : ClientTurn ι) :
    ClientChange s (s.next turn) := by
  cases turn with
  | request i =>
      rw [next]
      split
      · rename_i hphase
        exact .request (.of_eq hphase rfl (.start _)) nofun
      · exact .stay
  | respond i status =>
      rw [next]
      split
      · rename_i retry hphase
        split
        · rename_i hrefreshed
          exact .refresh (hphase.trans (congrArg Phase.fetching hrefreshed.2))
        · exact .request (.of_eq hphase rfl (.answer retry status _)) (answered_ne_waiting status)
      · exact .stay
  | reject i =>
      rw [next]
      split
      · rename_i retry hphase
        exact .request (.of_eq hphase rfl (.reject retry _)) nofun
      · exact .stay
  | readBody i valid =>
      rw [next]
      split
      · rename_i status hphase
        exact .request (.of_eq hphase rfl (.fail status _)) nofun
      · rename_i hphase
        exact .request (.of_eq hphase rfl (.read _ _)) nofun
      · exact .stay
  | resume i =>
      rw [next]
      split
      · rename_i r hphase
        split
        · rename_i accessToken hsettled
          split
          · rename_i token hfresh
            exact .request (.of_eq hphase rfl (.resend token hsettled hfresh _)) nofun
          · rename_i hstale
            exact .request (.of_eq hphase rfl (.giveUp hsettled hstale _)) nofun
        · exact .stay
      · exact .stay
  | refreshRespond r ok =>
      rw [next]
      split
      · rename_i hfetching
        split
        · exact .reading (hfetching ▸ trivial)
        · exact .settled (hfetching ▸ trivial) none
      · exact .stay
  | refreshReject r =>
      rw [next]
      split
      · rename_i hfetching
        exact .settled (hfetching ▸ trivial) none
      · rename_i hreading
        exact .settled (hreading ▸ trivial) none
      · exact .stay
  | refreshBody r accessToken =>
      rw [next]
      split
      · rename_i hreading
        exact .stored (hreading ▸ trivial) accessToken
      · exact .stay
  | setAuth accessToken => exact .setAuth accessToken

theorem ApiClient.call_setCall (s : ApiClient ι) (i j : ι) (c : RequestCall) :
    (s.setCall i c).call j = if j = i then c else s.call j :=
  Function.update_apply ..

/-- A step of one request leaves the others alone. -/
theorem RequestStep.setCall {s' : ApiClient ι} {i : ι} {c : RequestCall} (hcall : s'.call = s.call)
    (hstep : RequestStep s (s.call i) c) (j : ι) :
    RequestStep s (s.call j) ((s'.setCall i c).call j) := by
  rw [ApiClient.call_setCall, hcall]
  split
  · rename_i hj
    exact hj ▸ hstep
  · exact .stay _

/-- What a turn does to a request. -/
theorem ClientChange.callStep {s' : ApiClient ι} (h : ClientChange s s') (j : ι) :
    RequestStep s (s.call j) (s'.call j) := by
  cases h with
  | request hstep hfree => exact hstep.setCall rfl j
  | @refresh i hphase =>
      refine RequestStep.setCall s.refreshAccessToken_call ?_ j
      rw [s.refreshAccessToken_call]
      exact .of_eq hphase rfl (.refresh _)
  | _ => exact .stay _

/-- A turn changes the refresh that is outstanding, or starts one. -/
theorem ClientChange.refresh_cases {s' : ApiClient ι} (h : ClientChange s s') (r : ℕ) :
    s'.refresh r = s.refresh r ∨ (s.refresh r).Outstanding ∨ r = s.started := by
  cases h with
  | refresh =>
      show s.refreshAccessToken.2.refresh r = _ ∨ _
      unfold ApiClient.refreshAccessToken
      split
      · exact .inl rfl
      · exact refresh_update (.inr rfl) _ r
  | reading hout => exact refresh_update (.inl hout) _ r
  | settled hout => exact refresh_update (.inl hout) _ r
  | stored hout => exact refresh_update (.inl hout) _ r
  | _ => exact .inl rfl

end Turns

/-! ### One refresh at a time -/

/-- How often a request was sent, and what it waits for. -/
def RequestCall.Fits (refresh : ℕ → Refresh) (c : RequestCall) : Prop :=
  match c.phase with
  | .ready => c.sent = []
  | .fetching true => c.sent.length = 1
  | .waiting r => c.sent.length = 1 ∧ refresh r ≠ .unstarted
  | _ => c.sent.length ≤ 2

/-- The slot holds the refresh that is outstanding. -/
structure SingleFlight (s : ApiClient ι) : Prop where
  slot : ∀ r, (s.refresh r).Outstanding ↔ s.refreshing = some r
  fresh : ∀ r, s.started ≤ r → s.refresh r = .unstarted
  calls : ∀ i, (s.call i).Fits s.refresh

theorem RequestCall.Fits.congr {refresh refresh' : ℕ → Refresh} {c : RequestCall}
    (h : c.Fits refresh) (hrefresh : ∀ r, refresh r ≠ .unstarted → refresh' r ≠ .unstarted) :
    c.Fits refresh' := by
  obtain ⟨phase, sent⟩ := c
  cases phase with
  | waiting r => exact ⟨h.1, hrefresh r h.2⟩
  | fetching retry => cases retry <;> exact h
  | _ => exact h

/-- A request is sent twice at most. -/
theorem RequestCall.Fits.sent_le {refresh : ℕ → Refresh} {c : RequestCall} (h : c.Fits refresh) :
    c.sent.length ≤ 2 := by
  obtain ⟨phase, sent⟩ := c
  cases phase with
  | ready =>
      have hnil : sent = [] := h
      simp [hnil]
  | waiting r => exact h.1.le.trans one_le_two
  | fetching retry =>
      cases retry with
      | false => exact h
      | true =>
          have hone : sent.length = 1 := h
          exact hone.le.trans one_le_two
  | _ => exact h

namespace ApiClient

theorem answered_fits (refresh : ℕ → Refresh) (status : ℕ) (sent : List (Option JsString)) :
    RequestCall.Fits refresh ⟨answered status, sent⟩ = (sent.length ≤ 2) := by
  unfold answered
  split
  · rfl
  · split <;> rfl

end ApiClient

/-- A request that does not begin to wait still fits. -/
theorem RequestStep.fits {c c' : RequestCall} (hstep : RequestStep s c c') (h : c.Fits s.refresh)
    (hfree : ∀ r, c'.phase ≠ .waiting r) : c'.Fits s.refresh := by
  cases hstep with
  | stay => exact h
  | start sent =>
      have hnil : sent = [] := h
      rw [hnil]
      rfl
  | refresh => exact absurd rfl (hfree _)
  | answer retry status sent =>
      rw [ApiClient.answered_fits]
      exact h.sent_le
  | resend token hsettled hfresh sent =>
      show (sent ++ _).length ≤ 2
      rw [List.length_append, h.1]
      rfl
  | _ => exact h.sent_le

namespace SingleFlight

theorem ne_unstarted {refresh : Refresh} (h : refresh.Outstanding) : refresh ≠ .unstarted := by
  rintro rfl
  exact h

/-- A request that waits for a refresh still waits for one that was started. -/
theorem ne_unstarted_update {refresh : ℕ → Refresh} {r : ℕ} {new : Refresh}
    (hnew : new ≠ .unstarted) (r' : ℕ) (h : refresh r' ≠ .unstarted) :
    Function.update refresh r new r' ≠ .unstarted := by
  by_cases hr : r' = r
  · subst hr
    rwa [Function.update_self]
  · rwa [Function.update_of_ne hr]

/-- The outstanding refresh goes on. -/
theorem advance (h : SingleFlight s) {r : ℕ} (hr : (s.refresh r).Outstanding) (new : Refresh)
    (hnew : new ≠ .unstarted) {refreshing : Option ℕ}
    (hslot : ∀ r', refreshing = some r' ↔ new.Outstanding ∧ r' = r) :
    SingleFlight { s with
      refreshing := refreshing, refresh := Function.update s.refresh r new } where
  slot r' := by
    rw [hslot]
    by_cases hr' : r' = r
    · subst hr'
      simp
    · have hother : ¬(s.refresh r').Outstanding := fun hout =>
        hr' (Option.some.inj (((h.slot r').1 hout).symm.trans ((h.slot r).1 hr)))
      simp [hother, hr']
  fresh r' hr' := by
    have hne : r' ≠ r := by
      rintro rfl
      exact ne_unstarted hr (h.fresh r' hr')
    exact (Function.update_of_ne hne ..).trans (h.fresh r' hr')
  calls i := (h.calls i).congr (ne_unstarted_update hnew)

theorem settle (h : SingleFlight s) {r : ℕ} (hr : (s.refresh r).Outstanding)
    (accessToken : Option JsString) : SingleFlight (s.settle r accessToken) :=
  h.advance hr (.settled accessToken) nofun fun _ => ⟨nofun, fun hout => hout.1.elim⟩

/-- The token of the store plays no part. -/
theorem withToken (h : SingleFlight s) (accessToken : Option JsString) :
    SingleFlight { s with accessToken := accessToken } := ⟨h.slot, h.fresh, h.calls⟩

/-- `refreshAccessToken` gives the refresh in the slot, and starts one if the slot is empty. -/
theorem refreshAccessToken (h : SingleFlight s) :
    SingleFlight s.refreshAccessToken.2 ∧
      (s.refreshAccessToken.2.refresh s.refreshAccessToken.1).Outstanding := by
  unfold ApiClient.refreshAccessToken
  cases hslot : s.refreshing with
  | some r => exact ⟨h, (h.slot r).2 hslot⟩
  | none =>
      have hnone : ∀ r, ¬(s.refresh r).Outstanding := by
        intro r hout
        have hsome := (h.slot r).1 hout
        rw [hslot] at hsome
        cases hsome
      refine ⟨⟨fun r => ?_, fun r hr => ?_, fun i => ?_⟩, ?_⟩
      · by_cases hr : r = s.started
        · subst hr
          simp [Refresh.Outstanding]
        · simp [Function.update_of_ne hr, hnone r, Ne.symm hr]
      · have hne : r ≠ s.started := by
          rintro rfl
          exact absurd hr (by simp)
        have hlt : s.started ≤ r := le_trans (Nat.le_succ _) hr
        exact (Function.update_of_ne hne ..).trans (h.fresh r hlt)
      · exact (h.calls i).congr (ne_unstarted_update nofun)
      · simp [Refresh.Outstanding]

variable [DecidableEq ι]

theorem setCall (h : SingleFlight s) {i : ι} {c : RequestCall} (hc : c.Fits s.refresh) :
    SingleFlight (s.setCall i c) where
  slot := h.slot
  fresh := h.fresh
  calls := (Function.forall_update_iff s.call fun _ call => call.Fits s.refresh).2
    ⟨hc, fun j _ => h.calls j⟩

/-- **After every turn the slot holds the one refresh that is outstanding.** -/
theorem step (h : SingleFlight s) (turn : ClientTurn ι) : SingleFlight (s.next turn) := by
  have hchange := s.next_change turn
  generalize s.next turn = s' at hchange ⊢
  cases hchange with
  | stay => exact h
  | @request i c hstep hfree => exact h.setCall (hstep.fits (h.calls i) hfree)
  | @refresh i hphase =>
      have hsent := h.calls i
      rw [RequestCall.Fits, hphase] at hsent
      obtain ⟨hnext, hout⟩ := h.refreshAccessToken
      refine hnext.setCall ⟨?_, ne_unstarted hout⟩
      rw [ApiClient.refreshAccessToken_call]
      exact hsent
  | @reading r hout =>
      refine h.advance hout .reading nofun fun r' => ?_
      rw [(h.slot r).1 hout]
      exact ⟨fun heq => ⟨trivial, (Option.some.inj heq).symm⟩, fun hr => by rw [hr.2]⟩
  | settled hout accessToken => exact h.settle hout accessToken
  | stored hout accessToken => exact (h.settle hout accessToken).withToken accessToken
  | setAuth accessToken => exact h.withToken accessToken

theorem run {s' : ApiClient ι} {turns : List (ClientTurn ι)} (h : SingleFlight s)
    (hrun : Run (ClientStep ι) s turns s') : SingleFlight s' :=
  hrun.invariant (P := SingleFlight) (fun _ turn _ hs hstep => by
    obtain ⟨-, rfl⟩ := hstep
    exact hs.step turn) h

omit [DecidableEq ι] in
theorem unique (h : SingleFlight s) {r r' : ℕ} (hr : (s.refresh r).Outstanding)
    (hr' : (s.refresh r').Outstanding) : r = r' :=
  Option.some.inj (((h.slot r).1 hr).symm.trans ((h.slot r').1 hr'))

end SingleFlight

theorem ApiClient.Loaded.singleFlight (h : s.Loaded) : SingleFlight s where
  slot r := by simp [h.refresh, h.refreshing, Refresh.Outstanding]
  fresh r _ := h.refresh r
  calls i := by
    rw [h.call]
    rfl

/-! ### Waiting for a refresh -/

/-- The request was sent for the second time. -/
def Phase.Repeated : Phase → Prop
  | .fetching false | .failing _ | .reading | .done _ => True
  | _ => False

/-- The request that stood at `before` has gone on with the result of its refresh: with a token it
was sent once more, without one it fails with the 401. -/
def RequestCall.Resumed (before : RequestCall) (accessToken : Option JsString) (c : RequestCall) :
    Prop :=
  match truthy accessToken with
  | some _ => c.phase.Repeated ∧ ∃ header, c.sent = before.sent ++ [header]
  | none => (c.phase = .failing 401 ∨ c.phase = .done (.apiError 401)) ∧ c.sent = before.sent

theorem ApiClient.answered_repeated (status : ℕ) : (answered status).Repeated := by
  unfold answered
  split
  · trivial
  · split <;> trivial

theorem RequestStep.resumed {before c c' : RequestCall} {accessToken : Option JsString}
    (hstep : RequestStep s c c') (h : before.Resumed accessToken c) :
    before.Resumed accessToken c' := by
  unfold RequestCall.Resumed at h ⊢
  cases htoken : truthy accessToken with
  | some token =>
      rw [htoken] at h
      obtain ⟨hphase, hsent⟩ := h
      refine ⟨?_, ?_⟩
      · cases hstep with
        | stay => exact hphase
        | answer => exact ApiClient.answered_repeated _
        | start => exact hphase.elim
        | refresh => exact hphase.elim
        | resend => exact hphase.elim
        | giveUp => exact hphase.elim
        | _ => trivial
      · cases hstep with
        | start => exact hphase.elim
        | resend => exact hphase.elim
        | _ => exact hsent
  | none =>
      rw [htoken] at h
      obtain ⟨hphase, hsent⟩ := h
      cases hstep with
      | stay => exact ⟨hphase, hsent⟩
      | fail status sent =>
          obtain hfailing | hdone := hphase
          · cases hfailing
            exact ⟨.inr rfl, hsent⟩
          · cases hdone
      | _ => exact absurd hphase (by simp)

variable [DecidableEq ι]

/-- What a refresh was resolved with is final. -/
theorem SingleFlight.settled_next (h : SingleFlight s) {r : ℕ} {accessToken : Option JsString}
    (hr : s.refresh r = .settled accessToken) (turn : ClientTurn ι) :
    (s.next turn).refresh r = .settled accessToken := by
  obtain hsame | hout | rfl := (s.next_change turn).refresh_cases r
  · exact hsame.trans hr
  · rw [hr] at hout
    exact hout.elim
  · rw [h.fresh _ le_rfl] at hr
    cases hr

/-- **A request that waits for a refresh goes on with its result**, and only when it has one. -/
theorem SingleFlight.waits (h : SingleFlight s) {i : ι} {r : ℕ}
    (hphase : (s.call i).phase = .waiting r) {turns : List (ClientTurn ι)} {s' : ApiClient ι}
    (hrun : Run (ClientStep ι) s turns s') :
    s'.call i = s.call i ∨
      ∃ accessToken, s'.refresh r = .settled accessToken ∧
        (s.call i).Resumed accessToken (s'.call i) := by
  have hboth := hrun.invariant (P := fun s' => SingleFlight s' ∧ (s'.call i = s.call i ∨
      ∃ accessToken, s'.refresh r = .settled accessToken ∧
        (s.call i).Resumed accessToken (s'.call i))) ?_ ⟨h, .inl rfl⟩
  · exact hboth.2
  · rintro t turn _ ⟨ht, hcall⟩ ⟨-, rfl⟩
    refine ⟨ht.step turn, ?_⟩
    have hstep := (t.next_change turn).callStep i
    obtain hwaiting | ⟨accessToken, hsettled, hresumed⟩ := hcall
    · rw [hwaiting] at hstep
      generalize s.call i = c, (t.next turn).call i = c' at hstep hphase ⊢
      obtain ⟨phase, sent⟩ := c
      obtain rfl : phase = .waiting r := hphase
      cases hstep with
      | stay => exact .inl rfl
      | resend token hsettled hfresh =>
          refine .inr ⟨_, ht.settled_next hsettled turn, ?_⟩
          rw [RequestCall.Resumed, hfresh]
          exact ⟨trivial, _, rfl⟩
      | giveUp hsettled hstale =>
          refine .inr ⟨_, ht.settled_next hsettled turn, ?_⟩
          rw [RequestCall.Resumed, hstale]
          exact ⟨.inl rfl, rfl⟩
    · exact .inr ⟨accessToken, ht.settled_next hsettled turn, hstep.resumed hresumed⟩

/-- A request whose refresh is settled goes on when its turn comes. -/
theorem ApiClient.resumed_next {i : ι} {r : ℕ} (hphase : (s.call i).phase = .waiting r)
    {accessToken : Option JsString} (hsettled : s.refresh r = .settled accessToken) :
    (s.call i).Resumed accessToken ((s.next (.resume i)).call i) := by
  simp only [next, hphase, hsettled, RequestCall.Resumed]
  cases truthy accessToken with
  | some token =>
      simp only [send, call_setCall, if_true]
      exact ⟨trivial, _, rfl⟩
  | none =>
      simp only [setPhase, call_setCall, if_true]
      exact ⟨.inl rfl, trivial⟩

/-- **So it does after any turns.** -/
theorem SingleFlight.goes_on (h : SingleFlight s) {i : ι} {r : ℕ}
    (hphase : (s.call i).phase = .waiting r) {turns : List (ClientTurn ι)} {s' : ApiClient ι}
    (hrun : Run (ClientStep ι) s turns s') {accessToken : Option JsString}
    (hsettled : s'.refresh r = .settled accessToken) :
    (s.call i).Resumed accessToken ((s'.next (.resume i)).call i) := by
  obtain hwaiting | ⟨accessToken', hsettled', hresumed⟩ := h.waits hphase hrun
  · rw [← hwaiting] at hphase ⊢
    exact ApiClient.resumed_next hphase hsettled
  · obtain rfl : accessToken = accessToken' := Refresh.settled.inj (hsettled.symm.trans hsettled')
    exact ((s'.next_change (.resume i)).callStep i).resumed hresumed

/-! ### A 401 -/

/-- A 401 to the first attempt of a request. -/
structure Refreshes (s : ApiClient ι) (i : ι) : Prop where
  /-- The request waits for the refresh that is outstanding, and nothing else changes. -/
  joins : ∀ r, (s.refresh r).Outstanding →
    s.next (.respond i 401) = s.setPhase i (.waiting r)
  /-- If there is none, it starts one, and waits for that. -/
  starts : (∀ r, ¬(s.refresh r).Outstanding) →
    s.refresh s.started = .unstarted ∧
      ((s.next (.respond i 401)).refresh s.started).Outstanding ∧
      ((s.next (.respond i 401)).call i).phase = .waiting s.started

theorem SingleFlight.refreshes (h : SingleFlight s) {i : ι}
    (hphase : (s.call i).phase = .fetching true) : Refreshes s i where
  joins r hr := by
    have hslot := (h.slot r).1 hr
    simp only [ApiClient.next, hphase, ApiClient.refreshAccessToken, hslot, and_self, if_true]
  starts hnone := by
    have hslot : s.refreshing = none := by
      cases hslot : s.refreshing with
      | none => rfl
      | some r => exact absurd ((h.slot r).2 hslot) (hnone r)
    have hnext : s.next (.respond i 401) =
        s.refreshAccessToken.2.setPhase i (.waiting s.refreshAccessToken.1) := by
      simp only [ApiClient.next, hphase, and_self, if_true]
    have hrefresh : s.refreshAccessToken.1 = s.started := by
      rw [ApiClient.refreshAccessToken, hslot]
    refine ⟨h.fresh _ le_rfl, ?_, ?_⟩
    · rw [hnext, ← hrefresh]
      exact h.refreshAccessToken.2
    · rw [hnext, hrefresh, ApiClient.setPhase, ApiClient.call_setCall, if_pos rfl]

/-- **One refresh at a time.**  After any turns of the event loop at most one refresh is
outstanding, and no request was sent more than twice.  A request whose first attempt gets a 401
then waits for that refresh, or starts one if there is none; and whatever comes after that, it waits
until the refresh is settled, and goes on with its result when its turn comes. -/
theorem single_flight {s₀ : ApiClient ι} {turns : List (ClientTurn ι)} (hloaded : s₀.Loaded)
    (hrun : Run (ClientStep ι) s₀ turns s) :
    (∀ r r', (s.refresh r).Outstanding → (s.refresh r').Outstanding → r = r') ∧
      (∀ i, (s.call i).sent.length ≤ 2) ∧
      (∀ i, (s.call i).phase = .fetching true → Refreshes s i) ∧
      ∀ i r turns' s', (s.call i).phase = .waiting r → Run (ClientStep ι) s turns' s' →
        (s'.call i = s.call i ∨
          ∃ accessToken, s'.refresh r = .settled accessToken ∧
            (s.call i).Resumed accessToken (s'.call i)) ∧
        ∀ accessToken, s'.refresh r = .settled accessToken →
          (s.call i).Resumed accessToken ((s'.next (.resume i)).call i) := by
  have h := hloaded.singleFlight.run hrun
  refine ⟨fun r r' hr hr' => h.unique hr hr', fun i => (h.calls i).sent_le,
    fun i hphase => h.refreshes hphase, fun i r turns' s' hphase hrun' => ?_⟩
  exact ⟨h.waits hphase hrun', fun _ hsettled => h.goes_on hphase hrun' hsettled⟩

end SingleFlight

/-! ### Two requests -/

namespace SingleFlight.Samples

def loaded : ApiClient Bool := ⟨none, none, fun _ => .unstarted, 0, fun _ => ⟨.ready, []⟩⟩

theorem loaded_loaded : loaded.Loaded := ⟨rfl, fun _ => rfl, rfl, fun _ => rfl⟩

def play (turns : List (ClientTurn Bool)) : ApiClient Bool := turns.foldl ApiClient.next loaded

theorem play_run (turns : List (ClientTurn Bool)) :
    Run (ClientStep Bool) loaded turns (play turns) := by
  have halong : ∀ (turns : List (ClientTurn Bool)) (s : ApiClient Bool),
      Along (fun _ _ => True) ApiClient.next s turns := by
    intro turns
    induction turns with
    | nil => exact fun _ => trivial
    | cons turn turns ih => exact fun s => ⟨trivial, ih _⟩
  exact (halong turns loaded).run

/-- The first request is refreshed. -/
def refreshed : List (ClientTurn Bool) :=
  [.request false, .respond false 401, .refreshRespond 0 true, .refreshBody 0 (some (js "t")),
    .resume false]

/-- Before it is answered, the second request starts another refresh. -/
def again : List (ClientTurn Bool) := refreshed ++ [.request true, .respond true 401]

end SingleFlight.Samples

open SingleFlight.Samples in
theorem single_flight_refreshed :
    ((play (refreshed.take 2)).call false).phase = .waiting 0 ∧
      ((play (refreshed.take 4)).next (.resume false)).call false =
        ⟨.fetching false, [none, some (js "t")]⟩ ∧
      RequestCall.Resumed ((play (refreshed.take 2)).call false) (some (js "t"))
        (((play (refreshed.take 4)).next (.resume false)).call false) := by
  have hlast := (single_flight loaded_loaded (play_run (refreshed.take 2))).2.2.2 false 0
    [.refreshRespond 0 true, .refreshBody 0 (some (js "t"))] (play (refreshed.take 4)) rfl
    (Along.run ⟨trivial, trivial, trivial⟩)
  exact ⟨rfl, rfl, hlast.2 _ rfl⟩

open SingleFlight.Samples in
/-- The 401 to the second attempt of a request is not refreshed, although a refresh is
outstanding. -/
theorem repeated_request_gives_up :
    ¬∀ (s₀ s : ApiClient Bool) (turns : List (ClientTurn Bool)), s₀.Loaded →
      Run (ClientStep Bool) s₀ turns s → ∀ i retry r, (s.call i).phase = .fetching retry →
        (s.refresh r).Outstanding → ((s.next (.respond i 401)).call i).phase = .waiting r := by
  intro hall
  have hwaiting := hall loaded (play again) again loaded_loaded (play_run again) false false 1 rfl
    trivial
  exact absurd hwaiting (by decide)

end PmSaas
