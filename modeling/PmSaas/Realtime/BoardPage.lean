import PmSaas.Realtime.BoardSync
import PmSaas.Realtime.RealtimeGateway
import PmSaas.Lib.TransitionSystem

/-!
# A board that loads, joins and loses its connection

The page fetches the list of issues and joins the project's room independently of each other, and
a connection that Socket.io opens again is in no room: the effect of `useBoardRealtime` does not run
again.  What is committed after the list was read and while the socket is not in the room never
gets to the page (`missed_edit`).

* `BoardPage` is the server, the connection and the page; requests are served one at a time;
* `page_upToDate` — in every run in which nothing of that kind is missed, the page shows every
  column of the database's issues when it is at rest, but perhaps the `updatedAt` of an issue that
  was moved: `issue:moved` does not carry it.
-/

namespace PmSaas

open Replay Table TransitionSystem

/-- The page's `project:join`. -/
inductive JoinMessage where
  /-- The effect has not run. -/
  | unsent
  /-- Emitted; Socket.io keeps it until the socket is connected. -/
  | buffered
  | sent
  /-- Handled by the server, or lost with the connection. -/
  | over
  deriving DecidableEq

/-- The initial fetch of `useIssues`. -/
inductive Fetch where
  | requested
  /-- The server has read the list. -/
  | answered (rows : List IssueView)
  | completed
  deriving DecidableEq

structure BoardPage where
  world : World
  connected : Bool
  join : JoinMessage
  /-- The server has the socket in the project's room. -/
  inRoom : Bool
  /-- The events on their way to the page, oldest first. -/
  inbox : List IssueEvent
  fetch : Fetch
  /-- The issue list in the query cache. -/
  cache : Option (List IssueView)
  /-- How many events at the front of `inbox` were there when the list was read. -/
  behind : ℕ
  /-- The events that were on their way when the list was read, and those emitted since. -/
  since : List IssueEvent

inductive PageAction where
  | read
  | load
  /-- The effect runs: it attaches the handlers and emits `project:join`. -/
  | subscribe
  | send
  | enter
  | mutate (request : IssueRequest) (g : Gen)
  | deliver
  | disconnect
  | reconnect

/-- Whose page it is, and of which project. -/
structure BoardVisit where
  organizationId : JsString
  projectKey : JsString
  projectId : JsString
  userId : JsString
  ilike : JsString → JsString → Bool

namespace BoardVisit

/-- What was sent to the project's room from one world to the next. -/
def roomEvents (v : BoardVisit) (w w' : World) : List IssueEvent :=
  ((w'.broadcasts.drop w.broadcasts.length).filter
    (·.room = projectRoom v.organizationId v.projectId)).map Broadcast.event

def list (v : BoardVisit) (w : World) : Except Exn (List IssueView) :=
  (IssuesService.list v.ilike v.organizationId v.projectKey { limit := 100 } w).1

def serve (v : BoardVisit) (request : IssueRequest) (g : Gen) (w : World) : World :=
  (IssuesService.serve v.organizationId g request w).2

end BoardVisit

namespace BoardPage

def next (v : BoardVisit) (s : BoardPage) : PageAction → BoardPage
  | .read =>
      match v.list s.world with
      | .ok rows =>
          { s with fetch := .answered rows, behind := s.inbox.length, since := s.inbox }
      | .error _ => s
  | .load =>
      match s.fetch with
      | .answered rows => { s with fetch := .completed, cache := some rows }
      | _ => s
  | .subscribe => { s with join := .buffered }
  | .send => { s with join := .sent }
  | .enter =>
      { s with
        join := .over
        inRoom := s.world.db.joinLookup v.projectId (some v.userId) = some v.organizationId }
  | .mutate request g =>
      { s with
        world := v.serve request g s.world
        inbox := if s.inRoom then s.inbox ++ v.roomEvents s.world (v.serve request g s.world)
          else s.inbox
        since := s.since ++ v.roomEvents s.world (v.serve request g s.world) }
  | .deliver =>
      match s.inbox with
      | [] => s
      | e :: inbox =>
          { s with
            inbox := inbox, behind := s.behind - 1, cache := some (patch e (s.cache.getD [])) }
  | .disconnect =>
      -- What is on its way is lost, in both directions.
      { s with
        connected := false
        join := if s.join = .sent then .over else s.join
        inRoom := false
        inbox := []
        behind := 0 }
  | .reconnect => { s with connected := true }

/-- The project has at most 100 issues when they are read. -/
def Enabled (v : BoardVisit) (s : BoardPage) : PageAction → Prop
  | .read => s.fetch = .requested ∧ (s.world.db.boardList v.projectId).length ≤ 100
  | .load => s.fetch ≠ .requested ∧ s.fetch ≠ .completed
  | .subscribe => s.join = .unsent
  | .send => s.connected = true ∧ s.join = .buffered
  | .enter => s.join = .sent
  | .mutate _ _ => True
  | .deliver => s.inbox ≠ []
  | .disconnect => s.connected = true
  | .reconnect => s.connected = false

/-- The condition on a step.  Once the list is read, the issues of the project change only while
the socket is in the room, no event of such a change is handled before the list is, and the
connection is not lost with such an event, or with any event of a list that is shown, on its way. -/
def Attended (v : BoardVisit) (s : BoardPage) : PageAction → Prop
  | .mutate request _ => s.fetch ≠ .requested →
      request.project v.organizationId s.world.db = some v.projectId → s.inRoom = true
  | .deliver => s.fetch ≠ .requested → s.fetch ≠ .completed → 0 < s.behind
  | .disconnect => s.fetch ≠ .requested →
      s.inbox.length ≤ s.behind ∧ (s.fetch = .completed → s.inbox = [])
  | _ => True

instance (v : BoardVisit) (s : BoardPage) : ∀ a, Decidable (s.Enabled v a)
  | .read => inferInstanceAs (Decidable (_ ∧ _))
  | .load => inferInstanceAs (Decidable (_ ∧ _))
  | .subscribe | .enter => inferInstanceAs (Decidable (s.join = _))
  | .send => inferInstanceAs (Decidable (_ ∧ _))
  | .mutate _ _ => isTrue trivial
  | .deliver => inferInstanceAs (Decidable (_ ≠ _))
  | .disconnect | .reconnect => inferInstanceAs (Decidable (s.connected = _))

instance (v : BoardVisit) (s : BoardPage) : ∀ a, Decidable (s.Attended v a)
  | .mutate _ _ => inferInstanceAs (Decidable (_ → _ → _))
  | .deliver => inferInstanceAs (Decidable (_ → _ → _))
  | .disconnect => inferInstanceAs (Decidable (_ → _))
  | .read | .load | .subscribe | .send | .enter | .reconnect => isTrue trivial

/-- The fetch has completed, the socket is connected, and no message is in flight. -/
structure AtRest (s : BoardPage) : Prop where
  fetch : s.fetch = .completed
  connected : s.connected = true
  join : s.join = .over
  inbox : s.inbox = []

/-- The issues of which an `issue:moved` was on its way when the list was read or was emitted
since. -/
def moved (s : BoardPage) : List JsString :=
  s.since.filterMap fun
    | .moved id _ _ => some id
    | _ => none

/-- The cache holds the project's issues: all columns but `updatedAt` of every issue, and the whole
of those that were not moved. -/
structure UpToDate (v : BoardVisit) (s : BoardPage) (rows : List IssueView) : Prop where
  cache : s.cache = some rows
  shown : (rows.map IssueView.shown).Perm
    ((s.world.db.boardList v.projectId).map IssueView.shown)
  whole : ∀ id ∉ s.moved, rows.find? (·.id == id) =
    (s.world.db.boardList v.projectId).find? (·.id == id)

end BoardPage

/-- One request, or one step of the page and its connection. -/
abbrev PageStep (v : BoardVisit) : BoardPage → PageAction → BoardPage → Prop :=
  Steps (BoardPage.Enabled v) (BoardPage.next v)

/-- The page is mounted: the list is requested, and the effect is about to run. -/
structure PageStart (v : BoardVisit) (s : BoardPage) : Prop where
  sound : TenantSound s.world.db
  project : ∃ p, s.world.db.findProject v.organizationId v.projectKey = some p ∧ p.id = v.projectId
  fetch : s.fetch = .requested
  join : s.join = .unsent
  inRoom : s.inRoom = false
  inbox : s.inbox = []

/-! ### A request and its event -/

namespace BoardVisit

variable {v : BoardVisit} {request : IssueRequest} {g : Gen} {w : World}

section Announced

variable (organizationId : JsString) (a : Announcement) (id : Cuid) (now : Date)

theorem announced_issues :
    (IssueTask.announced organizationId a id now w).db.issues = w.db.issues := by
  have hlater : Aftermath a.entry.organizationId w (w.recorded a.entry id now) := .recorded id now w
  rw [IssueTask.announced_db]
  exact hlater.issues

/-- What follows a write keeps what the write has kept. -/
theorem preserves_announced {db : Db} (h : Preserves g w.db db) :
    Preserves g w.db (IssueTask.announced organizationId a id now { w with db := db }).db := by
  have hlater : Aftermath a.entry.organizationId { w with db := db }
      (World.recorded { w with db := db } a.entry id now) := .recorded id now _
  have hprojects : (IssueTask.announced organizationId a id now { w with db := db }).db.projects =
      db.projects := by
    rw [IssueTask.announced_db]
    exact hlater.projects
  refine ⟨?_, fun o k => ?_, fun p hp => ?_, fun i hi => ?_⟩
  · rw [IssueTask.announced_db]
    exact h.sound.after hlater
  · rw [← h.keys o k, Db.findProject, hprojects, Db.findProject]
  · rw [hprojects]
    exact h.projects p hp
  · rw [announced_issues] at hi
    exact h.issues i hi

theorem roomEvents_announced (v : BoardVisit) (db : Db) :
    v.roomEvents w (IssueTask.announced v.organizationId a id now { w with db := db }) =
      if a.projectId = v.projectId then [a.event] else [] := by
  rw [roomEvents, IssueTask.announced_broadcasts]
  simp only [List.drop_left]
  by_cases hproject : a.projectId = v.projectId
  · simp [hproject]
  · have hroom : ¬projectRoom v.organizationId a.projectId =
        projectRoom v.organizationId v.projectId :=
      fun heq => hproject (List.append_cancel_left heq)
    simp [hproject, hroom]

end Announced

/-- A request changes nothing of the project, or it makes the change its one event says. -/
theorem serve_spec (v : BoardVisit) (request : IssueRequest) (g : Gen) (hsound : TenantSound w.db) :
    Preserves g w.db (v.serve request g w).db ∧
    ((v.roomEvents w (v.serve request g w) = [] ∧
        (v.serve request g w).db.boardList v.projectId = w.db.boardList v.projectId) ∨
      ∃ a db, IssueTask.Commit v.organizationId g w.db request a db ∧ a.projectId = v.projectId ∧
        v.roomEvents w (v.serve request g w) = [a.event] ∧
        (v.serve request g w).db.boardList v.projectId = db.boardList v.projectId) := by
  rcases @IssueTask.serve_cases v.organizationId g request w with
    hsame | ⟨a, db, id, now, hcommit, hserve⟩
  · rw [serve, hsame]
    refine ⟨.refl hsound, .inl ⟨?_, rfl⟩⟩
    rw [roomEvents, List.drop_length]
    rfl
  · have hboard : (IssueTask.announced v.organizationId a id now { w with db := db }).db.boardList
        v.projectId = db.boardList v.projectId := by
      rw [Db.boardList, announced_issues, Db.boardList]
    rw [serve, hserve, roomEvents_announced, hboard]
    refine ⟨preserves_announced _ _ _ _ (hcommit.preserves hsound), ?_⟩
    by_cases hproject : a.projectId = v.projectId
    · rw [if_pos hproject]
      exact .inr ⟨a, db, hcommit, hproject, rfl, rfl⟩
    · rw [if_neg hproject]
      exact .inl ⟨rfl, (hcommit.mirrors hsound).other _ hproject⟩

end BoardVisit

namespace BoardPage

/-! ### What every step keeps -/

/-- The database is sound, the project is there, and the fields fit together. -/
structure Coherent (v : BoardVisit) (s : BoardPage) : Prop where
  sound : TenantSound s.world.db
  project : ∃ p, s.world.db.findProject v.organizationId v.projectKey = some p ∧ p.id = v.projectId
  outside : s.join ≠ .over → s.inRoom = false
  empty : s.inRoom = false → s.inbox = []
  behind : s.fetch ≠ .requested → s.fetch ≠ .completed → s.behind ≤ s.inbox.length
  since : s.fetch ≠ .requested → ∀ e ∈ s.inbox, e ∈ s.since
  rows : ∀ rows, s.fetch = .answered rows → UniqueKey IssueView.id rows
  cache : s.fetch = .completed → ∃ l, s.cache = some l ∧ UniqueKey IssueView.id l

/-- The page is told of everything the lens shows of the issue since its list was read. -/
def Told (lens : IssueLens) (id : JsString) (s : BoardPage) : Prop :=
  ∀ c ∈ lens.changes id s.since, lens.told c

def record (v : BoardVisit) (lens : IssueLens) (id : JsString) (s : BoardPage) :
    Option IssueView :=
  lens.row (s.world.db.boardList v.projectId) id

/-- What is on its way leads the page to the row of the database. -/
structure Tracks (v : BoardVisit) (lens : IssueLens) (id : JsString) (s : BoardPage) : Prop where
  requested : s.fetch = .requested →
    ReflectsOn setPlace lens.told (s.record v lens id) (lens.changes id s.inbox)
  answered : ∀ rows, s.fetch = .answered rows → s.Told lens id →
    ReflectsOn setPlace lens.told (lens.row rows id) (lens.changes id (s.inbox.take s.behind)) ∧
      Synced setPlace (s.record v lens id) (lens.row rows id)
        (lens.changes id (s.inbox.drop s.behind))
  completed : s.fetch = .completed → s.Told lens id → ∀ l, s.cache = some l →
    Synced setPlace (s.record v lens id) (lens.row l id) (lens.changes id s.inbox)

section Steps

variable {v : BoardVisit} {lens : IssueLens} {id : JsString} {s s' : BoardPage}

/-- A step of the connection alone. -/
theorem Tracks.congr (h : s.Tracks v lens id) (hworld : s'.world = s.world)
    (hinbox : s'.inbox = s.inbox) (hfetch : s'.fetch = s.fetch) (hcache : s'.cache = s.cache)
    (hbehind : s'.behind = s.behind) (hsince : s'.since = s.since) : s'.Tracks v lens id := by
  constructor
  · rw [record, hworld, hinbox, hfetch]
    exact h.requested
  · rw [record, Told, hworld, hinbox, hfetch, hbehind, hsince]
    exact h.answered
  · rw [record, Told, hworld, hinbox, hfetch, hcache, hsince]
    exact h.completed

theorem Tracks.read (h : s.Tracks v lens id) (hs : s.Coherent v) (hfetch : s.fetch = .requested)
    {rows : List IssueView} (hperm : rows.Perm (s.world.db.boardList v.projectId)) :
    ({ s with fetch := .answered rows, behind := s.inbox.length, since := s.inbox } :
      BoardPage).Tracks v lens id := by
  have hkey : UniqueKey IssueView.id rows :=
    (hperm.map IssueView.id).nodup_iff.2 (boardList_uniqueKey hs.sound.issueIds)
  refine ⟨nofun, ?_, nofun⟩
  rintro _ ⟨⟩ _
  simp only [List.take_length, List.drop_length]
  rw [IssueLens.row_perm hkey hperm]
  exact ⟨h.requested hfetch, rfl⟩

theorem Tracks.load (h : s.Tracks v lens id) (hs : s.Coherent v) {rows : List IssueView}
    (hfetch : s.fetch = .answered rows) :
    ({ s with fetch := .completed, cache := some rows } : BoardPage).Tracks v lens id := by
  refine ⟨nofun, nofun, ?_⟩
  rintro _ htold _ ⟨⟩
  obtain ⟨hreflects, hsynced⟩ := h.answered rows hfetch htold
  have hall : ∀ c ∈ lens.changes id (s.inbox.take s.behind), lens.told c := by
    intro c hc
    obtain ⟨e, he, hce⟩ := List.mem_filterMap.1 hc
    have hsince := hs.since (by rw [hfetch]; exact nofun) e (List.mem_of_mem_take he)
    exact htold c (List.mem_filterMap.2 ⟨e, hsince, hce⟩)
  show Synced setPlace (s.record v lens id) (lens.row rows id) (lens.changes id s.inbox)
  rw [← List.take_append_drop s.behind s.inbox, IssueLens.changes_append, Synced, replay_append,
    hreflects.synced hall]
  exact hsynced

theorem Tracks.deliver (h : s.Tracks v lens id) (hs : s.Coherent v) {e : IssueEvent}
    {inbox : List IssueEvent} (hinbox : s.inbox = e :: inbox)
    (hattended : s.fetch ≠ .requested → s.fetch ≠ .completed → 0 < s.behind) :
    ({ s with
      inbox := inbox, behind := s.behind - 1, cache := some (patch e (s.cache.getD [])) } :
        BoardPage).Tracks v lens id := by
  have hcons : ∀ rest, lens.changes id (e :: rest) = lens.changes id [e] ++ lens.changes id rest :=
    fun rest => lens.changes_append [e] rest
  refine ⟨fun hfetch => ?_, fun rows hfetch htold => ?_, fun hfetch htold l hl => ?_⟩
  · have hreflects := h.requested hfetch
    rw [hinbox, hcons] at hreflects
    exact hreflects.arrive
  · have hfetch' : s.fetch = .answered rows := hfetch
    have hpos := hattended (by rw [hfetch']; exact nofun) (by rw [hfetch']; exact nofun)
    obtain ⟨n, hn⟩ : ∃ n, s.behind = n + 1 := ⟨s.behind - 1, by omega⟩
    obtain ⟨hreflects, hsynced⟩ := h.answered rows hfetch' htold
    rw [hinbox, hn, List.take_succ_cons, hcons] at hreflects
    rw [hinbox, hn, List.drop_succ_cons] at hsynced
    simp only [hn, Nat.add_sub_cancel]
    exact ⟨hreflects.arrive, hsynced⟩
  · obtain ⟨l₀, hl₀, _⟩ := hs.cache hfetch
    have hsynced := h.completed hfetch htold l₀ hl₀
    rw [hinbox, hcons] at hsynced
    have hl' : some (patch e (s.cache.getD [])) = some l := hl
    rw [hl₀, Option.getD_some] at hl'
    rw [← Option.some.inj hl', IssueLens.row_patch]
    exact hsynced.arrive

theorem Tracks.disconnect (h : s.Tracks v lens id)
    (hattended : s.fetch ≠ .requested →
      s.inbox.length ≤ s.behind ∧ (s.fetch = .completed → s.inbox = [])) (join : JoinMessage) :
    ({ s with connected := false, join := join, inRoom := false, inbox := [], behind := 0 } :
      BoardPage).Tracks v lens id := by
  refine ⟨fun _ => reflectsOn_nil _, fun rows hfetch htold => ?_, fun hfetch htold l hl => ?_⟩
  · have hfetch' : s.fetch = .answered rows := hfetch
    have hlength := (hattended (by rw [hfetch']; exact nofun)).1
    have hsynced := (h.answered rows hfetch' htold).2
    rw [List.drop_eq_nil_of_le hlength] at hsynced
    exact ⟨reflectsOn_nil _, hsynced⟩
  · have hfetch' : s.fetch = .completed := hfetch
    have hempty := (hattended (by rw [hfetch']; exact nofun)).2 hfetch'
    have hsynced := h.completed hfetch' htold l hl
    rw [hempty] at hsynced
    exact hsynced

/-- A request that changes nothing of the project. -/
theorem Tracks.elsewhere (h : s.Tracks v lens id) {w : World}
    (hboard : w.db.boardList v.projectId = s.world.db.boardList v.projectId) :
    ({ s with world := w } : BoardPage).Tracks v lens id := by
  have hrecord : ({ s with world := w } : BoardPage).record v lens id = s.record v lens id := by
    rw [record, hboard, record]
  refine ⟨fun hfetch => ?_, fun rows hfetch htold => ?_, fun hfetch htold l hl => ?_⟩
  · rw [hrecord]
    exact h.requested hfetch
  · rw [hrecord]
    exact h.answered rows hfetch htold
  · rw [hrecord]
    exact h.completed hfetch htold l hl

theorem Told.snoc {w : World} {e : IssueEvent}
    (h : ({ s with world := w, since := s.since ++ [e] } : BoardPage).Told lens id) :
    s.Told lens id ∧ ∀ c ∈ lens.changes id [e], lens.told c := by
  rw [Told, IssueLens.changes_append] at h
  exact ⟨fun c hc => h c (List.mem_append_left _ hc), fun c hc => h c (List.mem_append_right _ hc)⟩

/-- A request that changes the project. -/
theorem Tracks.change (h : s.Tracks v lens id) (hs : s.Coherent v) {w : World} {e : IssueEvent}
    (hin : s.fetch ≠ .requested → s.inRoom = true)
    (hcases : (lens.changes id [e] = [] ∧
        lens.row (w.db.boardList v.projectId) id = s.record v lens id) ∨
      ∃ c, lens.changes id [e] = [c] ∧ (lens.told c → c.Applies (s.record v lens id) ∧
        lens.row (w.db.boardList v.projectId) id = c.apply setPlace (s.record v lens id))) :
    ({ s with
      world := w
      inbox := if s.inRoom then s.inbox ++ [e] else s.inbox
      since := s.since ++ [e] } : BoardPage).Tracks v lens id := by
  have hsynced : ∀ {replica : Option IssueView} {events : List IssueEvent},
      (∀ c ∈ lens.changes id [e], lens.told c) →
      Synced setPlace (s.record v lens id) replica (lens.changes id events) →
      Synced setPlace (lens.row (w.db.boardList v.projectId) id) replica
        (lens.changes id (events ++ [e])) := by
    intro replica events hall hold
    rw [IssueLens.changes_append]
    rcases hcases with ⟨hnil, hrow⟩ | ⟨c, hc, hchange⟩
    · rw [hnil, hrow, List.append_nil]
      exact hold
    · rw [hc] at hall ⊢
      rw [(hchange (hall c (List.mem_singleton_self c))).2]
      exact hold.change c
  refine ⟨fun hfetch => ?_, fun rows hfetch hall => ?_, fun hfetch hall l hl => ?_⟩
  · have hreflects := h.requested hfetch
    cases hroom : s.inRoom with
    | false =>
        rw [hs.empty hroom]
        exact reflectsOn_nil _
    | true =>
        simp only [if_true, IssueLens.changes_append]
        rcases hcases with ⟨hnil, hrow⟩ | ⟨c, hc, hchange⟩
        · rw [hnil, List.append_nil, record, hrow]
          exact hreflects
        · rw [hc]
          exact hreflects.change setPlace_overwrites hchange
  · have hfetch' : s.fetch = .answered rows := hfetch
    obtain ⟨hold, hnew⟩ := Told.snoc (w := w) hall
    obtain ⟨hreflects, hreplica⟩ := h.answered rows hfetch' hold
    have hbehind := hs.behind (by rw [hfetch']; exact nofun) (by rw [hfetch']; exact nofun)
    simp only [hin (by rw [hfetch']; exact nofun), if_true]
    rw [List.take_append_of_le_length hbehind, List.drop_append_of_le_length hbehind]
    exact ⟨hreflects, hsynced hnew hreplica⟩
  · have hfetch' : s.fetch = .completed := hfetch
    obtain ⟨hold, hnew⟩ := Told.snoc (w := w) hall
    simp only [hin (by rw [hfetch']; exact nofun), if_true]
    exact hsynced hnew (h.completed hfetch' hold l hl)

theorem Tracks.mutate (h : s.Tracks v lens id) (hs : s.Coherent v) (request : IssueRequest)
    (g : Gen) (hattended : s.Attended v (.mutate request g)) :
    (s.next v (.mutate request g)).Tracks v lens id := by
  obtain ⟨_, ⟨hnone, hboard⟩ | ⟨a, db, hcommit, hproject, hone, hboard⟩⟩ :=
    v.serve_spec request g hs.sound
  · rw [next, hnone, List.append_nil, List.append_nil, ite_self]
    exact h.elsewhere hboard
  · rw [next, hone]
    have htarget := hcommit.project hs.sound
    rw [hproject] at htarget
    refine h.change hs (fun hfetch => hattended hfetch htarget) ?_
    rw [hboard, record, ← hproject]
    exact lens.commit_cases hcommit hs.sound id

theorem Coherent.mutate (hs : s.Coherent v) (request : IssueRequest) (g : Gen) :
    (s.next v (.mutate request g)).Coherent v := by
  have hkept := (v.serve_spec request g hs.sound).1
  refine ⟨hkept.sound, ?_, hs.outside, fun hroom => ?_, fun hfetch hfetch' => ?_,
    fun hfetch e he => ?_, hs.rows, hs.cache⟩
  · obtain ⟨p, hp, hpid⟩ := hs.project
    have hkey := hkept.keys v.organizationId v.projectKey
    rw [hp, Option.map_some, Option.map_eq_some_iff] at hkey
    obtain ⟨p', hp', hid⟩ := hkey
    exact ⟨p', hp', hid.trans hpid⟩
  · have hroom' : s.inRoom = false := hroom
    rw [next, hroom']
    exact hs.empty hroom'
  · refine (hs.behind hfetch hfetch').trans ?_
    rw [next]
    split
    · rw [List.length_append]
      exact Nat.le_add_right ..
    · exact le_rfl
  · rw [next] at he ⊢
    split at he
    · rcases List.mem_append.1 he with hold | hnew
      · exact List.mem_append_left _ (hs.since hfetch e hold)
      · exact List.mem_append_right _ hnew
    · exact List.mem_append_left _ (hs.since hfetch e he)

theorem list_perm (hs : s.Coherent v) (hfull : (s.world.db.boardList v.projectId).length ≤ 100)
    {rows : List IssueView} (hlist : v.list s.world = .ok rows) :
    rows.Perm (s.world.db.boardList v.projectId) := by
  obtain ⟨p, hp, hpid⟩ := hs.project
  rw [← hpid] at hfull ⊢
  exact hs.sound.list_perm hp hfull hlist

theorem Coherent.step {a : PageAction} (hs : s.Coherent v) (henabled : s.Enabled v a) :
    (s.next v a).Coherent v := by
  cases a with
  | read =>
      rw [next]
      cases hlist : v.list s.world with
      | error e => exact hs
      | ok rows =>
          have hperm := list_perm hs henabled.2 hlist
          have hkey : UniqueKey IssueView.id rows :=
            (hperm.map IssueView.id).nodup_iff.2 (boardList_uniqueKey hs.sound.issueIds)
          refine ⟨hs.sound, hs.project, hs.outside, hs.empty, fun _ _ => le_rfl,
            fun _ e he => he, ?_, nofun⟩
          rintro _ ⟨⟩
          exact hkey
  | load =>
      rw [next]
      split
      · rename_i rows hfetch
        refine ⟨hs.sound, hs.project, hs.outside, hs.empty, fun _ h => absurd rfl h,
          fun _ => hs.since (by rw [hfetch]; exact nofun), nofun, fun _ => ?_⟩
        exact ⟨rows, rfl, hs.rows rows hfetch⟩
      · exact hs
  | subscribe =>
      have hunsent : s.join ≠ .over := fun hover => absurd (henabled.symm.trans hover) nofun
      exact ⟨hs.sound, hs.project, fun _ => hs.outside hunsent, hs.empty, hs.behind, hs.since,
        hs.rows, hs.cache⟩
  | send =>
      have hbuffered : s.join ≠ .over := fun hover => absurd (henabled.2.symm.trans hover) nofun
      exact ⟨hs.sound, hs.project, fun _ => hs.outside hbuffered, hs.empty, hs.behind, hs.since,
        hs.rows, hs.cache⟩
  | enter =>
      have hsent : s.join ≠ .over := fun hover => absurd (henabled.symm.trans hover) nofun
      exact ⟨hs.sound, hs.project, fun h => absurd rfl h, fun _ => hs.empty (hs.outside hsent),
        hs.behind, hs.since, hs.rows, hs.cache⟩
  | mutate request g => exact hs.mutate request g
  | deliver =>
      rw [next]
      split
      · exact hs
      · rename_i e inbox hinbox
        refine ⟨hs.sound, hs.project, hs.outside, fun hroom => ?_, fun hfetch hfetch' => ?_,
          fun hfetch e' he' => ?_, hs.rows, fun hfetch => ?_⟩
        · have hempty := hs.empty hroom
          rw [hinbox] at hempty
          cases hempty
        · have hbehind := hs.behind hfetch hfetch'
          rw [hinbox, List.length_cons] at hbehind
          simp only
          omega
        · refine hs.since hfetch e' ?_
          rw [hinbox]
          exact List.mem_cons_of_mem e he'
        · obtain ⟨l, hl, hkey⟩ := hs.cache hfetch
          refine ⟨_, rfl, ?_⟩
          rw [hl, Option.getD_some]
          exact patch_uniqueKey e hkey
  | disconnect =>
      exact ⟨hs.sound, hs.project, fun _ => rfl, fun _ => rfl, fun _ _ => le_rfl,
        fun _ e he => absurd he List.not_mem_nil, hs.rows, hs.cache⟩
  | reconnect =>
      exact ⟨hs.sound, hs.project, hs.outside, hs.empty, hs.behind, hs.since, hs.rows, hs.cache⟩

theorem Tracks.step {a : PageAction} (h : s.Tracks v lens id) (hs : s.Coherent v)
    (henabled : s.Enabled v a) (hattended : s.Attended v a) : (s.next v a).Tracks v lens id := by
  cases a with
  | read =>
      rw [next]
      cases hlist : v.list s.world with
      | error e => exact h
      | ok rows => exact h.read hs henabled.1 (list_perm hs henabled.2 hlist)
  | load =>
      rw [next]
      split
      · rename_i rows hfetch
        exact h.load hs hfetch
      · exact h
  | mutate request g => exact h.mutate hs request g hattended
  | deliver =>
      rw [next]
      split
      · exact h
      · rename_i e inbox hinbox
        exact h.deliver hs hinbox hattended
  | disconnect => exact h.disconnect hattended _
  | _ => exact h.congr rfl rfl rfl rfl rfl rfl

end Steps

/-! ### The page at rest -/

theorem Coherent.start {v : BoardVisit} {s : BoardPage} (h : PageStart v s) : s.Coherent v := by
  refine ⟨h.sound, h.project, fun _ => h.inRoom, fun _ => h.inbox, fun hfetch => ?_,
    fun hfetch => ?_, fun rows hfetch => ?_, fun hfetch => ?_⟩
  · exact absurd h.fetch hfetch
  · exact absurd h.fetch hfetch
  · rw [h.fetch] at hfetch
    cases hfetch
  · rw [h.fetch] at hfetch
    cases hfetch

theorem Tracks.start {v : BoardVisit} {s : BoardPage} (h : PageStart v s) (lens : IssueLens)
    (id : JsString) : s.Tracks v lens id := by
  refine ⟨fun _ => ?_, fun rows hfetch => ?_, fun hfetch => ?_⟩
  · rw [h.inbox]
    exact reflectsOn_nil _
  · rw [h.fetch] at hfetch
    cases hfetch
  · rw [h.fetch] at hfetch
    cases hfetch

/-- The whole of an issue is told unless it was moved. -/
theorem told_whole {s : BoardPage} {id : JsString} (h : id ∉ s.moved) : s.Told .whole id := by
  intro c hc p hp
  obtain ⟨e, he, hce⟩ := List.mem_filterMap.1 hc
  split at hce
  · rename_i hid
    obtain rfl := Option.some.inj hce
    cases e with
    | moved id' status rank =>
        refine h (List.mem_filterMap.2 ⟨_, he, ?_⟩)
        rw [← hid]
        rfl
    | _ => cases hp
  · cases hce

/-- A page that is at rest and was told of everything. -/
theorem Tracks.upToDate {v : BoardVisit} {s : BoardPage} (hs : s.Coherent v)
    (h : ∀ lens id, s.Tracks v lens id) (hrest : s.AtRest) : ∃ rows, s.UpToDate v rows := by
  obtain ⟨l, hl, hkey⟩ := hs.cache hrest.fetch
  have hrow : ∀ lens : IssueLens, ∀ id, s.Told lens id →
      lens.row l id = lens.row (s.world.db.boardList v.projectId) id := by
    intro lens id htold
    have hsynced := (h lens id).completed hrest.fetch htold l hl
    rw [hrest.inbox] at hsynced
    exact hsynced.eq
  refine ⟨l, hl, ?_, fun id hid => ?_⟩
  · refine shown_perm_of_card_eq hkey (boardList_uniqueKey hs.sound.issueIds) fun id => ?_
    exact hrow .shown id fun _ _ => trivial
  · have hwhole := hrow .whole id (told_whole hid)
    rw [IssueLens.row, rowOf, IssueLens.row, rowOf] at hwhole
    simpa [IssueLens.whole] using hwhole

end BoardPage

/-- **A page that misses nothing is up to date.**  In every run in which, once the list is read, the
project changes only while the socket is in the room, no event of such a change is handled before
the list is, and none is lost with the connection: when the page is at rest, its cache holds the
database's issues of the project. -/
theorem page_upToDate {v : BoardVisit} {s₀ s : BoardPage} {as : List PageAction}
    (h₀ : PageStart v s₀) (hrun : Run (Guarded (PageStep v) (BoardPage.Attended v)) s₀ as s)
    (hrest : s.AtRest) : ∃ rows, s.UpToDate v rows := by
  have h : s.Coherent v ∧ ∀ lens id, s.Tracks v lens id := by
    refine hrun.invariant (P := fun s => s.Coherent v ∧ ∀ lens id, s.Tracks v lens id) ?_
      ⟨.start h₀, BoardPage.Tracks.start h₀⟩
    rintro s a _ ⟨hs, htracks⟩ ⟨⟨henabled, rfl⟩, hattended⟩
    exact ⟨hs.step henabled, fun lens id => (htracks lens id).step hs henabled hattended⟩
  exact BoardPage.Tracks.upToDate h.1 h.2 hrest

/-! ### One edit -/

namespace BoardPage.Samples

def visit : BoardVisit where
  organizationId := Demo.orgId.val
  projectKey := Demo.project.key
  projectId := Demo.projectId.val
  userId := Demo.userId.val
  ilike _ _ := false

/-- The project has one issue, and the page of its owner is mounted. -/
def start : BoardPage where
  world := { Demo.world with db := { Demo.world.db with
    memberships := [⟨js "cowner", Demo.userId.val, Demo.orgId.val, .OWNER, 0⟩]
    issues := [TwoEdits.issue] } }
  connected := true
  join := .unsent
  inRoom := false
  inbox := []
  fetch := .requested
  cache := none
  behind := 0
  since := []

theorem start_ok : PageStart visit start where
  sound := by constructor <;> decide
  project := ⟨Demo.project, by decide, rfl⟩
  fetch := rfl
  join := rfl
  inRoom := rfl
  inbox := rfl

def play (as : List PageAction) : BoardPage := as.foldl (next visit) start

/-- Another member changes the title. -/
def edit : PageAction := .mutate (TwoEdits.rename false) (TwoEdits.draw false)

def attended : List PageAction := [.subscribe, .send, .enter, .read, .load, edit, .deliver]

/-- The edit comes after a reconnection. -/
def reconnected : List PageAction :=
  [.subscribe, .send, .enter, .read, .load, .disconnect, .reconnect, edit]

/-- The edit comes between the read and the join. -/
def joinedLate : List PageAction := [.read, edit, .load, .subscribe, .send, .enter]

end BoardPage.Samples

open BoardPage.Samples in
theorem page_upToDate_attended : ∃ rows, (play attended).UpToDate visit rows :=
  page_upToDate start_ok
    (Along.guarded (show Along _ (BoardPage.next visit) start attended by decide))
    ⟨by decide, by decide, by decide, by decide⟩

open BoardPage.Samples in
/-- An edit made after a reconnection, or between the read and the join, never gets to the page. -/
theorem missed_edit : PageStart visit start ∧ ∀ as ∈ [reconnected, joinedLate],
    Run (PageStep visit) start as (play as) ∧ (play as).AtRest ∧
      ¬∃ rows, (play as).UpToDate visit rows := by
  have hstale : ∀ s : BoardPage, s.cache = some [issueSelect TwoEdits.issue] →
      (s.world.db.boardList visit.projectId).map IssueView.title = [js "First"] →
      ¬∃ rows, s.UpToDate visit rows := by
    rintro s hcache hdb ⟨rows, hrows⟩
    obtain rfl := Option.some.inj (hcache.symm.trans hrows.cache)
    have htitles := hrows.shown.map IssueView.title
    rw [List.map_map, List.map_map] at htitles
    have hdb' : (s.world.db.boardList visit.projectId).map (IssueView.title ∘ IssueView.shown) =
        [js "First"] := hdb
    rw [hdb'] at htitles
    exact absurd htitles (by decide)
  refine ⟨start_ok, fun as has => ?_⟩
  rcases List.mem_pair.1 has with rfl | rfl
  · exact ⟨Along.run (by decide), ⟨by decide, by decide, by decide, by decide⟩,
      hstale _ (by decide) (by decide)⟩
  · exact ⟨Along.run (by decide), ⟨by decide, by decide, by decide, by decide⟩,
      hstale _ (by decide) (by decide)⟩

end PmSaas
