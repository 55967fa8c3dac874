import PmSaas.Lib.Interleaving
import PmSaas.Realtime.BoardEvents

/-!
# The board of a passive client

Any number of issue requests of one organization take turns, one database call at a time, and a
client follows the room of one project: it joins, loads the project's list and handles the events
of the room in the order they were emitted.  An event is emitted some steps after its write, so two
writes of one issue can be announced in the wrong order, and the client keeps the older one
(`stale_board`).

* `inSync_of_inOrder`: as long as every event is emitted before the events of later writes of the
  same issue, the client ends with the issues of the database.
-/

namespace PmSaas

open Replay SortBy Table TransitionSystem

/-- What `useBoardRealtime` and `useIssues` keep of one project. -/
structure BoardClient where
  joined : Bool
  /-- The issue list in the query cache. -/
  cache : Option (List IssueView)
  /-- Whether the list was fetched. -/
  loaded : Bool
  /-- How many broadcasts it has handled or missed. -/
  handled : ℕ

/-- The requests `τ` and one client.  `unsent` is what the requests have written and not announced,
oldest write first; it is there to state the order of events, no step reads it. -/
structure BoardNode (τ : Type*) where
  requests : Pool τ IssueTask World
  unsent : List (τ × Announcement)
  client : BoardClient

inductive SyncAction (τ : Type*) where
  | run (t : τ) (belowFirst : Bool) (g : Gen)
  | join
  | load
  | deliver

/-- `emitToProject` of an announcement. -/
def Announcement.broadcast (organizationId : JsString) (a : Announcement) : Broadcast :=
  ⟨projectRoom organizationId a.projectId, a.event⟩

namespace BoardClient

/-- Only what is sent to the room from now on gets to the client. -/
def join (broadcasts : List Broadcast) (c : BoardClient) : BoardClient :=
  { c with joined := true, handled := broadcasts.length }

def load (rows : List IssueView) (c : BoardClient) : BoardClient :=
  { c with cache := some rows, loaded := true }

/-- The next broadcast of the server, which the client gets if it is for its room. -/
def deliver (room : JsString) (b : Broadcast) (c : BoardClient) : BoardClient :=
  { c with
    cache := if b.room = room then some (patch b.event (c.cache.getD [])) else c.cache
    handled := c.handled + 1 }

end BoardClient

section Node

variable {τ : Type*} [DecidableEq τ]

namespace BoardNode

/-- The queue of unsent announcements after request `t` made a step. -/
def track (unsent : List (τ × Announcement)) (t : τ) :
    Option Announcement → Option Announcement → List (τ × Announcement)
  | none, some a => unsent ++ [(t, a)]
  | some _, none => deleteWhere (fun u => u.1 = t) unsent
  | _, _ => unsent

/-- Request `t` makes its next step. -/
def run (organizationId : JsString) (t : τ) (belowFirst : Bool) (g : Gen) (s : BoardNode τ) :
    BoardNode τ :=
  let requests := s.requests.advance (IssueTask.step organizationId belowFirst g) t
  { s with
    requests := requests
    unsent := track s.unsent t (s.requests.thread t).announcement (requests.thread t).announcement }

/-- `cuid()` does not give an id out again while a request works on the issue it named. -/
def Fresh (g : Gen) (s : BoardNode τ) : Prop :=
  ∀ t issue actorId, s.requests.thread t = .removing issue actorId → issue.id ≠ (g.cuid 0).val

end BoardNode

/-- One step of the requests or of the client.  `useIssues` asks for 100 issues. -/
def SyncStep (ilike : JsString → JsString → Bool) (organizationId projectKey projectId : JsString)
    (s : BoardNode τ) (action : SyncAction τ) (s' : BoardNode τ) : Prop :=
  match action with
  | .run t belowFirst g => s.Fresh g ∧ s' = s.run organizationId t belowFirst g
  | .join =>
      s.client.joined = false ∧
        s' = { s with client := s.client.join s.requests.store.broadcasts }
  | .load =>
      s.client.joined = true ∧ (s.requests.store.db.boardList projectId).length ≤ 100 ∧
        ∃ rows, (IssuesService.list ilike organizationId projectKey { limit := 100 }
            s.requests.store).1 = .ok rows ∧
          s' = { s with client := s.client.load rows }
  | .deliver =>
      s.client.joined = true ∧
        ∃ b, s.requests.store.broadcasts[s.client.handled]? = some b ∧
          s' = { s with client := s.client.deliver (projectRoom organizationId projectId) b }

/-- The event a request is about to emit is the oldest one of its issue that was not emitted. -/
def InOrder (s : BoardNode τ) : SyncAction τ → Prop
  | .run t _ _ => ∀ a, s.requests.thread t = .emitting a →
      s.unsent.find? (·.2.event.issueId == a.event.issueId) = some (t, a)
  | _ => True

/-- No request has begun, and the client has not joined. -/
structure SyncStart (organizationId projectKey projectId : JsString) (s : BoardNode τ) : Prop where
  sound : TenantSound s.requests.store.db
  project : ∃ p, s.requests.store.db.findProject organizationId projectKey = some p ∧
    p.id = projectId
  requests : ∀ t, ∃ request, s.requests.thread t = .start request
  unsent : s.unsent = []
  joined : s.client.joined = false
  loaded : s.client.loaded = false
  handled : s.client.handled = s.requests.store.broadcasts.length

/-- Every request is finished and every event delivered to the client, which has its list. -/
structure SyncEnd (s : BoardNode τ) : Prop where
  requests : ∀ t, ∃ answer, s.requests.thread t = .done answer
  loaded : s.client.loaded = true
  handled : s.client.handled = s.requests.store.broadcasts.length

/-- The client shows the issues of the database, with everything but `updatedAt`. -/
def InSync (projectId : JsString) (s : BoardNode τ) : Prop :=
  ∃ l, s.client.cache = some l ∧
    (l.map IssueView.shown).Perm ((s.requests.store.db.boardList projectId).map IssueView.shown)

end Node

/-! ### What is on its way to the client -/

/-- The changes of one issue among the broadcasts of a room. -/
def changes (room id : JsString) (sent : List Broadcast) : List (Change IssueView Place) :=
  sent.filterMap fun b => if b.room = room ∧ b.event.issueId = id then some b.event.change else none

section Changes

variable {room id : JsString}

theorem changes_append (sent sent' : List Broadcast) :
    changes room id (sent ++ sent') = changes room id sent ++ changes room id sent' :=
  List.filterMap_append

theorem changes_of_ne {b : Broadcast} (h : ¬(b.room = room ∧ b.event.issueId = id)) :
    changes room id [b] = [] := by
  rw [changes, List.filterMap_cons, if_neg h]
  rfl

theorem changes_self {b : Broadcast} (hroom : b.room = room) (hid : b.event.issueId = id) :
    changes room id [b] = [b.event.change] := by
  rw [changes, List.filterMap_cons, if_pos ⟨hroom, hid⟩]
  rfl

theorem changes_eq_nil {sent : List Broadcast} (h : ∀ b ∈ sent, b.event.issueId ≠ id) :
    changes room id sent = [] :=
  List.filterMap_eq_nil_iff.2 fun b hb => if_neg fun hb' => h b hb hb'.2

/-- Broadcasts about different issues can trade places. -/
theorem changes_comm {sent : List Broadcast} {b : Broadcast}
    (h : ∀ b' ∈ sent, b'.event.issueId ≠ b.event.issueId) :
    changes room id (sent ++ [b]) = changes room id ([b] ++ sent) := by
  rw [changes_append, changes_append]
  by_cases hid : b.event.issueId = id
  · have hnil : changes room id sent = [] := changes_eq_nil fun b' hb' => hid ▸ h b' hb'
    rw [hnil, List.nil_append, List.append_nil]
  · rw [changes_of_ne fun hb => hid hb.2, List.nil_append, List.append_nil]

/-- What a broadcast does to one card of the client. -/
theorem card_deliver (b : Broadcast) (l : List IssueView) :
    card (if b.room = room then patch b.event l else l) id =
      replay setPlace (card l id) (changes room id [b]) := by
  by_cases hroom : b.room = room
  · rw [if_pos hroom]
    by_cases hid : b.event.issueId = id
    · rw [changes_self hroom hid, ← hid, patch_card_self]
      rfl
    · rw [changes_of_ne fun hb => hid hb.2, patch_card_of_ne hid]
      rfl
  · rw [if_neg hroom, changes_of_ne fun hb => hroom hb.1]
    rfl

theorem projectRoom_injective (organizationId : JsString) :
    Function.Injective (projectRoom organizationId) :=
  fun _ _ h => List.append_cancel_left h

/-- A write changes a card of the project by what the room will be told about it, if anything. -/
theorem Mirrors.card_cases {db db' : Db} {a : Announcement} (h : Mirrors db db' a)
    (organizationId projectId id : JsString) :
    (changes (projectRoom organizationId projectId) id [a.broadcast organizationId] = [] ∧
      card (db'.boardList projectId) id = card (db.boardList projectId) id) ∨
    ∃ e, changes (projectRoom organizationId projectId) id [a.broadcast organizationId] = [e] ∧
      e.Applies (card (db.boardList projectId) id) ∧
      card (db'.boardList projectId) id = e.apply setPlace (card (db.boardList projectId) id) := by
  by_cases hproject : a.projectId = projectId
  · subst hproject
    rw [card_congr h.shown]
    by_cases hid : a.event.issueId = id
    · subst hid
      right
      exact ⟨a.event.change, changes_self rfl rfl, h.applies, patch_card_self ..⟩
    · left
      exact ⟨changes_of_ne fun hb => hid hb.2, patch_card_of_ne hid _⟩
  · left
    refine ⟨changes_of_ne fun hb => hproject (projectRoom_injective organizationId hb.1), ?_⟩
    rw [h.other projectId hproject]

end Changes

section Sync

variable {τ : Type*}

namespace BoardNode

/-- The broadcasts the client has still to handle, and those the requests have still to make. -/
def comingBroadcasts (organizationId : JsString) (s : BoardNode τ) : List Broadcast :=
  s.requests.store.broadcasts.drop s.client.handled ++
    s.unsent.map fun u => u.2.broadcast organizationId

def coming (organizationId projectId id : JsString) (s : BoardNode τ) :
    List (Change IssueView Place) :=
  changes (projectRoom organizationId projectId) id (s.comingBroadcasts organizationId)

end BoardNode

/-! ### What every step keeps -/

/-- The database is sound, the project is there, and the requests rely on what they have read. -/
structure SyncSound (organizationId projectKey projectId : JsString) (s : BoardNode τ) :
    Prop where
  sound : TenantSound s.requests.store.db
  project : ∃ p, s.requests.store.db.findProject organizationId projectKey = some p ∧
    p.id = projectId
  grounded : ∀ t, (s.requests.thread t).Grounded organizationId s.requests.store.db

/-- `unsent` is what the requests have to announce. -/
structure Recorded (s : BoardNode τ) : Prop where
  senders : (s.unsent.map Prod.fst).Nodup
  unsent : ∀ t a, (t, a) ∈ s.unsent ↔ (s.requests.thread t).announcement = some a
  handled : s.client.handled ≤ s.requests.store.broadcasts.length

/-- For every issue, what is on its way leads the client to the row of the database. -/
structure Follows (organizationId projectId : JsString) (s : BoardNode τ) : Prop where
  joined : s.client.loaded = true → s.client.joined = true
  reflects : ∀ id, Reflects setPlace (card (s.requests.store.db.boardList projectId) id)
    (s.coming organizationId projectId id)
  synced : s.client.loaded = true → ∃ l, s.client.cache = some l ∧ UniqueKey IssueView.id l ∧
    ∀ id, Synced setPlace (card (s.requests.store.db.boardList projectId) id) (card l id)
      (s.coming organizationId projectId id)

end Sync

section Client

variable {τ : Type*} {organizationId projectKey projectId : JsString}
  {ilike : JsString → JsString → Bool} {s s' : BoardNode τ}

/-! ### Keeping up with the board -/

/-- The client shows every column but `updatedAt` as the database has it. -/
theorem InSync.column {β : Type*} {f : IssueView → β} (h : InSync projectId s)
    (hf : ∀ i : IssueView, f i.shown = f i) : ∃ l, s.client.cache = some l ∧
      (l.map f).Perm ((s.requests.store.db.boardList projectId).map f) := by
  obtain ⟨l, hl, hperm⟩ := h
  have hmap : ∀ m : List IssueView, (m.map IssueView.shown).map f = m.map f := by
    intro m
    rw [List.map_map]
    exact List.map_congr_left fun i _ => hf i
  have hcolumn := hperm.map f
  rw [hmap, hmap] at hcolumn
  exact ⟨l, hl, hcolumn⟩

/-- A step that leaves the cards, the client and what is on its way. -/
theorem Follows.congr (h : Follows organizationId projectId s) (hclient : s'.client = s.client)
    (hcard : ∀ id, card (s'.requests.store.db.boardList projectId) id =
      card (s.requests.store.db.boardList projectId) id)
    (hcoming : ∀ id, s'.coming organizationId projectId id =
      s.coming organizationId projectId id) : Follows organizationId projectId s' := by
  refine ⟨hclient ▸ h.joined, fun id => ?_, fun hloaded => ?_⟩
  · rw [hcard, hcoming]
    exact h.reflects id
  · rw [hclient] at hloaded ⊢
    obtain ⟨l, hl, hkey, hsynced⟩ := h.synced hloaded
    refine ⟨l, hl, hkey, fun id => ?_⟩
    rw [hcard, hcoming]
    exact hsynced id

/-- A write puts its change at the end of what is on its way. -/
theorem Follows.write (h : Follows organizationId projectId s) {a : Announcement}
    (mirrors : Mirrors s.requests.store.db s'.requests.store.db a)
    (hclient : s'.client = s.client)
    (hcoming : ∀ id, s'.coming organizationId projectId id = s.coming organizationId projectId id ++
      changes (projectRoom organizationId projectId) id [a.broadcast organizationId]) :
    Follows organizationId projectId s' := by
  refine ⟨hclient ▸ h.joined, fun id => ?_, fun hloaded => ?_⟩
  · rw [hcoming]
    rcases mirrors.card_cases organizationId projectId id with
      ⟨hnil, hcard⟩ | ⟨e, he, happlies, hcard⟩
    · rw [hnil, hcard, List.append_nil]
      exact h.reflects id
    · rw [he, hcard]
      exact (h.reflects id).change setPlace_overwrites happlies
  · rw [hclient] at hloaded ⊢
    obtain ⟨l, hl, hkey, hsynced⟩ := h.synced hloaded
    refine ⟨l, hl, hkey, fun id => ?_⟩
    rw [hcoming]
    rcases mirrors.card_cases organizationId projectId id with
      ⟨hnil, hcard⟩ | ⟨e, he, _, hcard⟩
    · rw [hnil, hcard, List.append_nil]
      exact hsynced id
    · rw [he, hcard]
      exact (hsynced id).change e

/-! ### What the client does -/

theorem Follows.join (h : Follows organizationId projectId s) (hjoined : s.client.joined = false) :
    Follows organizationId projectId
      { s with client := s.client.join s.requests.store.broadcasts } := by
  refine ⟨fun _ => rfl, fun id => ?_, fun hloaded => ?_⟩
  · have hreflects := h.reflects id
    rw [BoardNode.coming, BoardNode.comingBroadcasts, changes_append] at hreflects
    rw [BoardNode.coming, BoardNode.comingBroadcasts, BoardClient.join, List.drop_length,
      List.nil_append]
    exact hreflects.arrive
  · rw [h.joined hloaded] at hjoined
    cases hjoined

theorem Follows.deliver (h : Follows organizationId projectId s) {b : Broadcast}
    (hb : s.requests.store.broadcasts[s.client.handled]? = some b)
    (hs' : s' = { s with client := s.client.deliver (projectRoom organizationId projectId) b }) :
    Follows organizationId projectId s' := by
  obtain ⟨hlt, hget⟩ := List.getElem?_eq_some_iff.1 hb
  have hcoming : ∀ id, s.coming organizationId projectId id =
      changes (projectRoom organizationId projectId) id [b] ++
        s'.coming organizationId projectId id := by
    intro id
    rw [BoardNode.coming, BoardNode.comingBroadcasts, List.drop_eq_getElem_cons hlt, hget,
      BoardNode.coming, ← changes_append, hs']
    rfl
  subst hs'
  refine ⟨h.joined, fun id => ?_, fun hloaded => ?_⟩
  · have hreflects := h.reflects id
    rw [hcoming] at hreflects
    exact hreflects.arrive
  · obtain ⟨l, hl, hkey, hsynced⟩ := h.synced hloaded
    refine ⟨if b.room = projectRoom organizationId projectId then patch b.event l else l,
      ?_, ?_, fun id => ?_⟩
    · rw [BoardClient.deliver, hl]
      split <;> rfl
    · split
      · exact patch_uniqueKey _ hkey
      · exact hkey
    · have hreplica := hsynced id
      rw [hcoming] at hreplica
      rw [card_deliver]
      exact hreplica.arrive

theorem Follows.load (hs : SyncSound organizationId projectKey projectId s)
    (h : Follows organizationId projectId s) (hjoined : s.client.joined = true)
    (hfull : (s.requests.store.db.boardList projectId).length ≤ 100) {rows : List IssueView}
    (hlist : (IssuesService.list ilike organizationId projectKey { limit := 100 }
      s.requests.store).1 = .ok rows) :
    Follows organizationId projectId { s with client := s.client.load rows } := by
  have hperm : rows.Perm (s.requests.store.db.boardList projectId) := by
    obtain ⟨p, hp, rfl⟩ := hs.project
    exact hs.sound.list_perm hp hfull hlist
  have hkey : UniqueKey IssueView.id (s.requests.store.db.boardList projectId) :=
    boardList_uniqueKey hs.sound.issueIds
  have hkey' : UniqueKey IssueView.id rows := (hperm.map IssueView.id).nodup_iff.2 hkey
  refine ⟨fun _ => hjoined, h.reflects, fun _ => ⟨rows, rfl, hkey', fun id => ?_⟩⟩
  rw [card_perm hkey' hperm]
  exact (h.reflects id).synced

theorem Recorded.not_sender (h : Recorded s) (hnone : (s.requests.thread t).announcement = none) :
    ∀ u ∈ s.unsent, u.1 ≠ t := by
  intro u hu hut
  subst hut
  have hsome := (h.unsent u.1 u.2).1 hu
  rw [hnone] at hsome
  cases hsome

/-! ### The start and the end -/

theorem SyncStart.bootstrap (h : SyncStart organizationId projectKey projectId s) :
    SyncSound organizationId projectKey projectId s ∧ Recorded s ∧
      Follows organizationId projectId s := by
  refine ⟨⟨h.sound, h.project, fun t => ?_⟩, ⟨?_, fun t a => ?_, h.handled.le⟩,
    ?_, fun id => ?_, ?_⟩
  · obtain ⟨request, hstart⟩ := h.requests t
    rw [hstart]
    exact .start ..
  · rw [h.unsent]
    exact List.nodup_nil
  · obtain ⟨request, hstart⟩ := h.requests t
    rw [h.unsent, hstart]
    exact ⟨nofun, nofun⟩
  · rw [h.loaded]
    exact nofun
  · have hnil : s.comingBroadcasts organizationId = [] := by
      rw [BoardNode.comingBroadcasts, h.handled, h.unsent, List.drop_length]
      rfl
    rw [BoardNode.coming, hnil]
    exact reflects_nil _
  · rw [h.loaded]
    exact nofun

/-- When nothing is on its way any more, following the board is showing it. -/
theorem Follows.inSync (hs : SyncSound organizationId projectKey projectId s) (hr : Recorded s)
    (h : Follows organizationId projectId s) (hend : SyncEnd s) : InSync projectId s := by
  have hunsent : s.unsent = [] := by
    refine List.eq_nil_iff_forall_not_mem.2 fun u hu => ?_
    obtain ⟨answer, hdone⟩ := hend.requests u.1
    have hsome := (hr.unsent u.1 u.2).1 hu
    rw [hdone] at hsome
    cases hsome
  have hnil : s.comingBroadcasts organizationId = [] := by
    rw [BoardNode.comingBroadcasts, hend.handled, hunsent, List.drop_length]
    rfl
  obtain ⟨l, hl, hkey, hsynced⟩ := h.synced hend.loaded
  refine ⟨l, hl, shown_perm_of_card_eq hkey (boardList_uniqueKey hs.sound.issueIds) fun id => ?_⟩
  have hid := hsynced id
  rw [BoardNode.coming, hnil] at hid
  exact hid.eq

end Client

section Steps

variable {τ : Type*} [DecidableEq τ] {organizationId projectKey projectId : JsString}
  {ilike : JsString → JsString → Bool} {s s' : BoardNode τ} {t : τ} {belowFirst : Bool} {g : Gen}

/-! ### What the requests do -/

theorem BoardNode.run_thread_of_ne (s : BoardNode τ) {t' : τ} (h : t' ≠ t) :
    (s.run organizationId t belowFirst g).requests.thread t' = s.requests.thread t' :=
  Pool.advance_thread_of_ne _ s.requests h

/-- One step of the pool is a step of its request. -/
theorem BoardNode.run_step (s : BoardNode τ) :
    IssueTask.Step organizationId g s.requests.store (s.requests.thread t)
      ((s.run organizationId t belowFirst g).requests.thread t)
      (s.run organizationId t belowFirst g).requests.store := by
  have hself : (s.run organizationId t belowFirst g).requests.thread t = _ :=
    Pool.advance_thread_self _ s.requests t
  rw [hself]
  exact IssueTask.step_spec belowFirst (s.requests.thread t)

theorem SyncSound.run (h : SyncSound organizationId projectKey projectId s) (hfresh : s.Fresh g) :
    SyncSound organizationId projectKey projectId (s.run organizationId t belowFirst g) := by
  have hstep : IssueTask.Step organizationId g s.requests.store (s.requests.thread t)
      ((s.run organizationId t belowFirst g).requests.thread t)
      (s.run organizationId t belowFirst g).requests.store := s.run_step
  have hpreserves := hstep.preserves h.sound (h.grounded t)
  refine ⟨hpreserves.sound, ?_, fun t' => ?_⟩
  · obtain ⟨p, hp, hid⟩ := h.project
    have hkeys := hpreserves.keys organizationId projectKey
    rw [hp, Option.map_some, Option.map_eq_some_iff] at hkeys
    obtain ⟨p', hp', hid'⟩ := hkeys
    exact ⟨p', hp', hid'.trans hid⟩
  · by_cases ht : t' = t
    · subst ht
      exact hstep.grounded h.sound
    · rw [s.run_thread_of_ne ht]
      exact hpreserves.grounded (h.grounded t') (hfresh t')

/-- The client reads the database, it does not write. -/
theorem SyncSound.step (h : SyncSound organizationId projectKey projectId s)
    {action : SyncAction τ}
    (hstep : SyncStep ilike organizationId projectKey projectId s action s') :
    SyncSound organizationId projectKey projectId s' := by
  cases action with
  | run t belowFirst g =>
      obtain ⟨hfresh, rfl⟩ := hstep
      exact h.run hfresh
  | join =>
      obtain ⟨_, rfl⟩ := hstep
      exact ⟨h.sound, h.project, h.grounded⟩
  | load =>
      obtain ⟨_, _, rows, _, rfl⟩ := hstep
      exact ⟨h.sound, h.project, h.grounded⟩
  | deliver =>
      obtain ⟨_, b, _, rfl⟩ := hstep
      exact ⟨h.sound, h.project, h.grounded⟩

/-- What a step of a request does to the issues and to the rooms. -/
theorem SyncSound.effect (h : SyncSound organizationId projectKey projectId s) (t : τ)
    (belowFirst : Bool) (g : Gen) :
    TaskEffect organizationId s.requests.store (s.run organizationId t belowFirst g).requests.store
      (s.requests.thread t).announcement
      ((s.run organizationId t belowFirst g).requests.thread t).announcement :=
  s.run_step.effect h.sound.issueIds (h.grounded t)

/-! ### The queue of unsent announcements -/

theorem BoardNode.mem_track_of_ne {unsent : List (τ × Announcement)} {t' : τ} (h : t' ≠ t)
    (before after : Option Announcement) (a : Announcement) :
    (t', a) ∈ BoardNode.track unsent t before after ↔ (t', a) ∈ unsent := by
  cases before <;> cases after <;> simp [BoardNode.track, h]

theorem BoardNode.track_self (unsent : List (τ × Announcement)) (t : τ) (a : Option Announcement) :
    BoardNode.track unsent t a a = unsent := by
  cases a <;> rfl

theorem Recorded.run (hs : SyncSound organizationId projectKey projectId s) (h : Recorded s) :
    Recorded (s.run organizationId t belowFirst g) := by
  have heffect := hs.effect t belowFirst g
  have hother : ∀ t' a, t' ≠ t → ((t', a) ∈ (s.run organizationId t belowFirst g).unsent ↔
      ((s.run organizationId t belowFirst g).requests.thread t').announcement = some a) := by
    intro t' a ht
    rw [s.run_thread_of_ne ht, ← h.unsent t' a]
    exact BoardNode.mem_track_of_ne ht ..
  have hunsent : (s.run organizationId t belowFirst g).unsent = BoardNode.track s.unsent t
      (s.requests.thread t).announcement
      ((s.run organizationId t belowFirst g).requests.thread t).announcement := rfl
  generalize hbefore : (s.requests.thread t).announcement = before at heffect hunsent
  generalize hafter : ((s.run organizationId t belowFirst g).requests.thread t).announcement = after
    at heffect hunsent
  have hmem : (∀ a, (t, a) ∈ (s.run organizationId t belowFirst g).unsent ↔ after = some a) →
      ∀ t' a, (t', a) ∈ (s.run organizationId t belowFirst g).unsent ↔
        ((s.run organizationId t belowFirst g).requests.thread t').announcement = some a := by
    intro hself t' a
    by_cases ht : t' = t
    · rw [ht, hafter, hself]
    · exact hother t' a ht
  cases heffect with
  | idle a issues broadcasts =>
      rw [BoardNode.track_self] at hunsent
      refine ⟨hunsent ▸ h.senders, hmem fun a' => ?_, broadcasts ▸ h.handled⟩
      rw [hunsent, h.unsent, hbefore]
  | @write a mirrors broadcasts =>
      have hnot := h.not_sender hbefore
      refine ⟨?_, hmem fun a' => ?_, broadcasts ▸ h.handled⟩
      · rw [hunsent]
        exact UniqueKey.insert h.senders hnot
      · rw [hunsent, BoardNode.track, List.mem_append, List.mem_singleton, Prod.mk.injEq,
          Option.some.injEq, eq_comm (a := a)]
        constructor
        · rintro (hold | ⟨_, heq⟩)
          · exact absurd rfl (hnot _ hold)
          · exact heq
        · exact fun heq => .inr ⟨rfl, heq⟩
  | emit a world =>
      refine ⟨?_, hmem fun a' => ?_, ?_⟩
      · rw [hunsent]
        exact UniqueKey.delete h.senders _
      · rw [hunsent, BoardNode.track]
        simp
      · rw [world]
        exact h.handled.trans (by simp [World.emitted])

theorem Recorded.step (hs : SyncSound organizationId projectKey projectId s) (h : Recorded s)
    {action : SyncAction τ}
    (hstep : SyncStep ilike organizationId projectKey projectId s action s') : Recorded s' := by
  cases action with
  | run t belowFirst g =>
      obtain ⟨_, rfl⟩ := hstep
      exact h.run hs
  | join =>
      obtain ⟨_, rfl⟩ := hstep
      exact ⟨h.senders, h.unsent, le_rfl⟩
  | load =>
      obtain ⟨_, _, rows, _, rfl⟩ := hstep
      exact ⟨h.senders, h.unsent, h.handled⟩
  | deliver =>
      obtain ⟨_, b, hb, rfl⟩ := hstep
      obtain ⟨hlt, _⟩ := List.getElem?_eq_some_iff.1 hb
      exact ⟨h.senders, h.unsent, hlt⟩

/-- Emitting the oldest event of an issue leaves what is on its way. -/
theorem Recorded.coming_emit (h : Recorded s) {a : Announcement}
    (hfind : s.unsent.find? (·.2.event.issueId == a.event.issueId) = some (t, a))
    (hunsent : s'.unsent = deleteWhere (fun u => u.1 = t) s.unsent)
    (hworld : s'.requests.store = s.requests.store.emitted organizationId a.projectId a.event)
    (hclient : s'.client = s.client) (id : JsString) :
    s'.coming organizationId projectId id = s.coming organizationId projectId id := by
  obtain ⟨_, before, after, hsplit, holder⟩ := List.find?_eq_some_iff_append.1 hfind
  let sent : List (τ × Announcement) → List Broadcast :=
    fun l => l.map fun u => u.2.broadcast organizationId
  have hunsent' : s'.unsent = before ++ after := by
    rw [hunsent, hsplit]
    exact UniqueKey.deleteWhere_eq (hsplit ▸ h.senders)
  have hdrop : s'.requests.store.broadcasts.drop s'.client.handled =
      s.requests.store.broadcasts.drop s.client.handled ++ [a.broadcast organizationId] := by
    rw [hworld, hclient]
    exact List.drop_append_of_le_length h.handled
  have holder' : ∀ b ∈ sent before,
      b.event.issueId ≠ (a.broadcast organizationId).event.issueId := by
    intro b hb
    obtain ⟨u, hu, rfl⟩ := List.mem_map.1 hb
    have hne : u.2.event.issueId ≠ a.event.issueId := by simpa using holder u hu
    exact hne
  have hcomm : changes (projectRoom organizationId projectId) id
      (sent before ++ [a.broadcast organizationId]) =
        changes (projectRoom organizationId projectId) id
          ([a.broadcast organizationId] ++ sent before) := changes_comm holder'
  calc s'.coming organizationId projectId id
      = changes (projectRoom organizationId projectId) id
          (s.requests.store.broadcasts.drop s.client.handled ++
            ([a.broadcast organizationId] ++ sent before) ++ sent after) := by
        rw [BoardNode.coming, BoardNode.comingBroadcasts, hdrop, hunsent', List.map_append]
        simp only [List.append_assoc, sent]
    _ = changes (projectRoom organizationId projectId) id
          (s.requests.store.broadcasts.drop s.client.handled ++
            (sent before ++ [a.broadcast organizationId]) ++ sent after) := by
        rw [changes_append, changes_append, ← hcomm, ← changes_append, ← changes_append]
    _ = s.coming organizationId projectId id := by
        rw [BoardNode.coming, BoardNode.comingBroadcasts, hsplit, List.map_append, List.map_cons]
        simp only [List.append_assoc, List.singleton_append, sent]

theorem Follows.run (hs : SyncSound organizationId projectKey projectId s) (hr : Recorded s)
    (h : Follows organizationId projectId s) (horder : InOrder s (.run t belowFirst g)) :
    Follows organizationId projectId (s.run organizationId t belowFirst g) := by
  have heffect := hs.effect t belowFirst g
  have hstep : IssueTask.Step organizationId g s.requests.store (s.requests.thread t)
      ((s.run organizationId t belowFirst g).requests.thread t)
      (s.run organizationId t belowFirst g).requests.store := s.run_step
  have hunsent : (s.run organizationId t belowFirst g).unsent = BoardNode.track s.unsent t
      (s.requests.thread t).announcement
      ((s.run organizationId t belowFirst g).requests.thread t).announcement := rfl
  have hclient : (s.run organizationId t belowFirst g).client = s.client := rfl
  generalize s.run organizationId t belowFirst g = s' at *
  generalize hbefore : (s.requests.thread t).announcement = before at heffect hunsent
  generalize hafter : (s'.requests.thread t).announcement = after at heffect hunsent
  cases heffect with
  | idle a issues broadcasts =>
      rw [BoardNode.track_self] at hunsent
      refine h.congr hclient (fun id => ?_) fun id => ?_
      · rw [Db.boardList, Db.boardList, issues]
      · rw [BoardNode.coming, BoardNode.comingBroadcasts, broadcasts, hclient, hunsent]
        rfl
  | @write a mirrors broadcasts =>
      refine h.write mirrors hclient fun id => ?_
      rw [BoardNode.coming, BoardNode.coming, ← changes_append, BoardNode.comingBroadcasts,
        BoardNode.comingBroadcasts, broadcasts, hclient, hunsent, BoardNode.track, List.map_append,
        ← List.append_assoc]
      rfl
  | emit a world =>
      have hemitting := hstep.emitting hbefore hafter
      refine h.congr hclient (fun id => ?_)
        (hr.coming_emit (horder a hemitting) hunsent world hclient)
      rw [world]
      rfl

theorem Follows.step (hs : SyncSound organizationId projectKey projectId s) (hr : Recorded s)
    (h : Follows organizationId projectId s) {action : SyncAction τ}
    (hstep : SyncStep ilike organizationId projectKey projectId s action s')
    (horder : InOrder s action) : Follows organizationId projectId s' := by
  cases action with
  | run t belowFirst g =>
      obtain ⟨_, rfl⟩ := hstep
      exact h.run hs hr horder
  | join =>
      obtain ⟨hjoined, rfl⟩ := hstep
      exact h.join hjoined
  | load =>
      obtain ⟨hjoined, hfull, rows, hlist, rfl⟩ := hstep
      exact h.load hs hjoined hfull hlist
  | deliver =>
      obtain ⟨_, b, hb, hs'⟩ := hstep
      exact h.deliver hb hs'

/-! ### Runs -/

/-- **In every run that emits the events of each issue in the order of its writes, the client ends
with the issues of the database.** -/
theorem inSync_of_inOrder {s₀ : BoardNode τ} {actions : List (SyncAction τ)}
    (hstart : SyncStart organizationId projectKey projectId s₀)
    (hrun : Run (Guarded (SyncStep ilike organizationId projectKey projectId) InOrder) s₀ actions s)
    (hend : SyncEnd s) : InSync projectId s := by
  obtain ⟨hsound, hrecorded, hfollows⟩ := hrun.invariant
    (P := fun s => SyncSound organizationId projectKey projectId s ∧ Recorded s ∧
      Follows organizationId projectId s) (fun s action s' hs hstep => by
    obtain ⟨hs, hr, hf⟩ := hs
    obtain ⟨hstep, horder⟩ := hstep
    exact ⟨hs.step hstep, hr.step hs hstep, hf.step hs hr hstep horder⟩) hstart.bootstrap
  exact hfollows.inSync hsound hrecorded hend

end Steps

/-! ### Two edits of one issue -/

namespace TwoEdits

def issue : Issue :=
  ⟨js "cissue", Demo.orgId.val, Demo.projectId.val, 1, js "Draft", none, .BACKLOG, .NONE, js "a0",
    Demo.userId.val, none, none, 0, 0⟩

/-- Two requests that change the title. -/
def rename (second : Bool) : IssueRequest :=
  .update Demo.userId.val issue.id { title := some (if second then js "Second" else js "First") }

def start : BoardNode Bool where
  requests :=
    { store := { Demo.world with db := { Demo.world.db with issues := [issue] } }
      thread := fun second => .start (rename second) }
  unsent := []
  client := ⟨false, none, false, 0⟩

theorem start_ok : SyncStart Demo.orgId.val Demo.project.key Demo.projectId.val start where
  sound := by constructor <;> decide
  project := ⟨Demo.project, by decide, rfl⟩
  requests _ := ⟨_, rfl⟩
  unsent := rfl
  joined := rfl
  loaded := rfl
  handled := rfl

/-- The values for the steps of a request; its audit row takes the id. -/
def draw (second : Bool) : Gen :=
  ⟨0, fun _ => if second then ⟨js "caudit2", by decide⟩ else ⟨js "caudit1", by decide⟩, fun _ => []⟩

abbrev turn (second : Bool) : SyncAction Bool := .run second false (draw second)

def took (second : Bool) (s : BoardNode Bool) : BoardNode Bool :=
  s.run Demo.orgId.val second false (draw second)

/-- Both edits are committed and audited, the first before the second. -/
def written : BoardNode Bool :=
  took true (took false (took true (took false (took true (took false
    { start with client := ⟨true, some [issueSelect issue], true, 0⟩ })))))

/-- The client handles the next broadcast. -/
def delivered (s : BoardNode Bool) : BoardNode Bool :=
  match s.requests.store.broadcasts[s.client.handled]? with
  | some b =>
      { s with client := s.client.deliver (projectRoom Demo.orgId.val Demo.projectId.val) b }
  | none => s

abbrev Step : BoardNode Bool → SyncAction Bool → BoardNode Bool → Prop :=
  SyncStep (fun _ _ => false) Demo.orgId.val Demo.project.key Demo.projectId.val

def Editing (s : BoardNode Bool) : Prop :=
  ∀ second issue actorId, s.requests.thread second ≠ .removing issue actorId

theorem took_step {s : BoardNode Bool} (second : Bool) (h : Editing s) :
    Step s (turn second) (took second s) :=
  ⟨fun t issue actorId heq => absurd heq (h t issue actorId), rfl⟩

theorem delivered_step {s : BoardNode Bool} (hjoined : s.client.joined = true)
    (hlt : s.client.handled < s.requests.store.broadcasts.length) :
    Step s .deliver (delivered s) := by
  have hget := List.getElem?_eq_getElem hlt
  refine ⟨hjoined, _, hget, ?_⟩
  rw [delivered, hget]

theorem written_run :
    Run (Guarded Step InOrder) start [.join, .load, turn false, turn true, turn false, turn true,
      turn false, turn true] written := by
  have hclient : Run (Guarded Step InOrder) start [.join, .load]
      { start with client := ⟨true, some [issueSelect issue], true, 0⟩ } :=
    (Run.nil.snoc ⟨⟨rfl, rfl⟩, trivial⟩).snoc ⟨⟨rfl, by decide, _, rfl, rfl⟩, trivial⟩
  have hquiet : ∀ {as : List (SyncAction Bool)} {s : BoardNode Bool} (second : Bool),
      Run (Guarded Step InOrder) start as s → Editing s →
      (∀ a, s.requests.thread second ≠ .emitting a) →
      Run (Guarded Step InOrder) start (as ++ [turn second]) (took second s) :=
    fun second h hediting hemitting =>
      h.snoc ⟨took_step second hediting, fun a heq => absurd heq (hemitting a)⟩
  refine hquiet true (hquiet false (hquiet true (hquiet false (hquiet true (hquiet false hclient
    ?_ ?_) ?_ ?_) ?_ ?_) ?_ ?_) ?_ ?_) ?_ ?_
  all_goals first
    | exact fun second issue actorId heq => by cases second <;> cases heq
    | exact fun a heq => by cases heq

/-- Both events emitted and delivered, one of them first. -/
def announced (first : Bool) : BoardNode Bool :=
  delivered (delivered (took (!first) (took first written)))

theorem announced_run (first : Bool) :
    Run Step start [.join, .load, turn false, turn true, turn false, turn true, turn false,
      turn true, turn first, turn (!first), .deliver, .deliver] (announced first) := by
  have hwritten : Run Step start _ written := written_run.mono fun _ _ _ h => h.1
  refine (((hwritten.snoc (took_step first ?_)).snoc (took_step (!first) ?_)).snoc
    (delivered_step ?_ ?_)).snoc (delivered_step ?_ ?_)
  · exact fun second issue actorId heq => by cases second <;> cases heq
  · exact fun second issue actorId heq => by cases first <;> cases second <;> cases heq
  all_goals cases first <;> decide

theorem announced_end (first : Bool) : SyncEnd (announced first) where
  requests second := by cases first <;> cases second <;> exact ⟨_, rfl⟩
  loaded := by cases first <;> rfl
  handled := by cases first <;> decide

end TwoEdits

open TwoEdits

theorem inSync_in_commit_order : InSync Demo.projectId.val (announced false) := by
  refine inSync_of_inOrder start_ok ((((written_run.snoc ⟨took_step false ?_, ?_⟩).snoc
    ⟨took_step true ?_, ?_⟩).snoc ⟨delivered_step ?_ ?_, trivial⟩).snoc
    ⟨delivered_step ?_ ?_, trivial⟩) (announced_end false)
  · exact fun second issue actorId heq => by cases second <;> cases heq
  · exact fun a heq => by cases heq; rfl
  · exact fun second issue actorId heq => by cases second <;> cases heq
  · exact fun a heq => by cases heq; rfl
  all_goals decide

/-- When the second edit is announced first, the client is left with the first title. -/
theorem stale_board :
    SyncStart Demo.orgId.val Demo.project.key Demo.projectId.val start ∧
    Run Step start [.join, .load, turn false, turn true, turn false, turn true, turn false,
      turn true, turn true, turn false, .deliver, .deliver] (announced true) ∧
    SyncEnd (announced true) ∧ ¬InSync Demo.projectId.val (announced true) := by
  refine ⟨start_ok, announced_run true, announced_end true, fun hsync => ?_⟩
  obtain ⟨l, hl, hperm⟩ := hsync.column (f := IssueView.title) fun _ => rfl
  have hclient : (announced true).client.cache.map (List.map IssueView.title) =
      some [js "First"] := by decide
  have hdb : ((announced true).requests.store.db.boardList Demo.projectId.val).map
      IssueView.title = [js "Second"] := by decide
  rw [hl] at hclient
  rw [Option.some.inj hclient, hdb] at hperm
  exact absurd hperm (by decide)

end PmSaas
