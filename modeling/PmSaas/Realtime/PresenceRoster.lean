import PmSaas.Realtime.JoinRaces

/-!
# The roster a board shows

`useBoardRealtime` builds the roster of its room from a snapshot, which the server sends when the
socket enters, and from the joins and leaves it hears afterwards.  The server sends a leave for the
last socket of a user only, and does not send a join to the socket it is about.

* `hearAll` — what a board makes of a sequence of events, if it is in one room only;
* `Follows` — a change of the node that a board in a room can follow, a preorder;
* `roster_mirrored` — in every run of the handlers, a board that is in a room and was never in two
  at once shows, once everything is delivered, the users of the room's presence.
-/

namespace PmSaas

open RefCount Table TransitionSystem

/-! ### The handlers of the board -/

/-- The presence handlers of `useBoardRealtime`. -/
def setPresence : PresenceEvent → List PresenceUser → List PresenceUser
  | .sync users, _ => users
  | .join u, prev => prev.filter (·.userId != u.userId) ++ [u]
  | .leave userId, prev => prev.filter (·.userId != userId)

/-- The users of `view`, each once, are those of the room's presence `t`. -/
structure ShowsRoom (view : List PresenceUser) (t : List PresenceEntry) : Prop where
  once : (view.map PresenceUser.userId).Nodup
  same : ∀ userId,
    userId ∈ view.map PresenceUser.userId ↔ userId ∈ t.map PresenceEntry.userId

section Handlers

variable {view : List PresenceUser} {t t' : List PresenceEntry}

theorem ShowsRoom.congr (h : ShowsRoom view t)
    (hkeys : t'.map PresenceEntry.userId = t.map PresenceEntry.userId) : ShowsRoom view t' :=
  ⟨h.once, fun userId => by rw [hkeys]; exact h.same userId⟩

theorem showsRoom_sync (h : UniqueKey PresenceEntry.userId t) :
    ShowsRoom (t.map PresenceEntry.user) t := by
  have hids : (t.map PresenceEntry.user).map PresenceUser.userId =
      t.map PresenceEntry.userId := by
    rw [List.map_map]
    rfl
  exact ⟨hids ▸ h, fun userId => by rw [hids]⟩

theorem mem_filter_userId {userId u : JsString} :
    u ∈ (view.filter (·.userId != userId)).map PresenceUser.userId ↔
      u ∈ view.map PresenceUser.userId ∧ u ≠ userId := by
  simp only [List.mem_map, List.mem_filter, bne_iff_ne]
  constructor
  · rintro ⟨v, ⟨hv, hne⟩, rfl⟩
    exact ⟨⟨v, hv, rfl⟩, hne⟩
  · rintro ⟨⟨v, hv, rfl⟩, hne⟩
    exact ⟨v, ⟨hv, hne⟩, rfl⟩

/-- A join of a user that the presence now has. -/
theorem ShowsRoom.join (h : ShowsRoom view t) (u : PresenceUser)
    (hkeys : ∀ k, k ∈ t'.map PresenceEntry.userId ↔
      k ∈ t.map PresenceEntry.userId ∨ k = u.userId) :
    ShowsRoom (setPresence (.join u) view) t' := by
  refine ⟨?_, fun k => ?_⟩
  · rw [setPresence, List.map_append]
    refine ((h.once.sublist (List.filter_sublist.map _))).append (List.nodup_singleton _) ?_
    rw [List.map_singleton, List.disjoint_singleton]
    exact fun hin => (mem_filter_userId.1 hin).2 rfl
  · rw [setPresence, List.map_append, List.mem_append, mem_filter_userId, h.same, hkeys]
    simp only [List.map_singleton, List.mem_singleton]
    by_cases hk : k = u.userId <;> simp [hk]

/-- A leave of a user that the presence no longer has. -/
theorem ShowsRoom.leave (h : ShowsRoom view t) (userId : JsString) :
    ShowsRoom (setPresence (.leave userId) view) (deleteWhere (·.userId == userId) t) := by
  refine ⟨h.once.sublist (List.filter_sublist.map _), fun k => ?_⟩
  rw [setPresence, mem_filter_userId, h.same]
  simp only [List.mem_map, mem_deleteWhere, beq_eq_false_iff_ne]
  constructor
  · rintro ⟨⟨e, he, rfl⟩, hne⟩
    exact ⟨e, ⟨he, hne⟩, rfl⟩
  · rintro ⟨e, ⟨he, hne⟩, rfl⟩
    exact ⟨⟨e, he, rfl⟩, hne⟩

end Handlers

/-! ### Changes a board can follow -/

section Follow

variable {ι : Type*} [DecidableEq ι]

/-- What reaches a socket that is in `room` and in no other. -/
def Audience.reaches (room : JsString) (client : ι) : Audience ι → Bool
  | .client i => decide (i = client)
  | .others i r => decide (i ≠ client ∧ r = room)
  | .room r => decide (r = room)

/-- What a board makes of the events that reach it. -/
def hearAll (p : Audience ι → Bool) (news : List (Audience ι × PresenceEvent))
    (view : List PresenceUser) : List PresenceUser :=
  ((news.filter fun n => p n.1).map Prod.snd).foldl (fun view event => setPresence event view) view

omit [DecidableEq ι] in
theorem hearAll_append (p : Audience ι → Bool) (news news' : List (Audience ι × PresenceEvent))
    (view : List PresenceUser) :
    hearAll p (news ++ news') view = hearAll p news' (hearAll p news view) := by
  simp only [hearAll, List.filter_append, List.map_append, List.foldl_append]

omit [DecidableEq ι] in
theorem hearAll_single (p : Audience ι → Bool) (audience : Audience ι) (event : PresenceEvent)
    (view : List PresenceUser) :
    hearAll p [(audience, event)] view = if p audience then setPresence event view else view := by
  cases hp : p audience <;> simp [hearAll, hp]

namespace Gateway

/-- Every room has one entry for a user. -/
def Keyed (s : Gateway ι) : Prop := ∀ room, UniqueKey PresenceEntry.userId (s.presence room)

/-- A board of `client` that is in `room` only, and heard what the node has sent, shows the room's
users after the change if it did before. -/
structure Follows (room : JsString) (client : ι) (s s' : Gateway ι) : Prop where
  keyed : s.Keyed → s'.Keyed
  news : ∃ news, s'.emitted = s.emitted ++ news ∧ ∀ view, ShowsRoom view (s.presence room) →
    ShowsRoom (hearAll (Audience.reaches room client) news view) (s'.presence room)

variable {room : JsString} {client : ι} {s s' s'' : Gateway ι}

/-- Nothing sent, and the same users in every room. -/
theorem Follows.quiet (hkeys : ∀ r, (s'.presence r).map PresenceEntry.userId =
    (s.presence r).map PresenceEntry.userId) (hemitted : s'.emitted = s.emitted) :
    Follows room client s s' := by
  refine ⟨fun h r => ?_, [], by rw [hemitted, List.append_nil], fun view hview => ?_⟩
  · rw [UniqueKey, hkeys r]
    exact h r
  · exact hview.congr (hkeys room)

theorem Follows.refl (s : Gateway ι) : Follows room client s s := .quiet (fun _ => rfl) rfl

theorem Follows.trans (h : Follows room client s s') (h' : Follows room client s' s'') :
    Follows room client s s'' := by
  obtain ⟨news, hemitted, hnews⟩ := h.news
  obtain ⟨news', hemitted', hnews'⟩ := h'.news
  refine ⟨fun hkeyed => h'.keyed (h.keyed hkeyed), news ++ news', ?_, fun view hview => ?_⟩
  · rw [hemitted', hemitted, List.append_assoc]
  · rw [hearAll_append]
    exact hnews' _ (hnews view hview)

theorem Follows.foldl {β : Type*} {f : Gateway ι → β → Gateway ι}
    (h : ∀ s b, Follows room client s (f s b)) (l : List β) (s : Gateway ι) :
    Follows room client s (l.foldl f s) := by
  induction l generalizing s with
  | nil => exact .refl s
  | cons b l ih => exact (h s b).trans (ih _)

omit [DecidableEq ι] in
/-- Updates of entries that keep their users keep the users of every room. -/
theorem setPresence_users {p : PresenceEntry → Bool} {f : PresenceEntry → PresenceEntry}
    (hf : ∀ e, (f e).userId = e.userId) (s : Gateway ι) (r q : JsString) :
    ((s.setPresence r (updateWhere p f (s.presence r))).presence q).map PresenceEntry.userId =
      (s.presence q).map PresenceEntry.userId := by
  by_cases hq : q = r
  · subst hq
    simp only [Gateway.setPresence, Function.update_self]
    exact map_updateWhere fun e _ _ => hf e
  · simp only [Gateway.setPresence, Function.update_of_ne hq]

theorem follows_dropPresence (room : JsString) (client : ι) (s : Gateway ι) (r userId : JsString) :
    Follows room client s (s.dropPresence r userId) := by
  unfold dropPresence
  split
  · exact .refl s
  · split
    · refine ⟨fun hkeyed q => ?_, [(.room r, .leave userId)], rfl, fun view hview => ?_⟩
      · by_cases hq : q = r
        · subst hq
          simp only [emit, Gateway.setPresence, Function.update_self]
          exact (hkeyed q).delete _
        · simp only [emit, Gateway.setPresence, Function.update_of_ne hq]
          exact hkeyed q
      · rw [hearAll_single]
        by_cases hr : r = room
        · subst hr
          rw [if_pos (by simp [Audience.reaches])]
          simp only [emit, Gateway.setPresence, Function.update_self]
          exact hview.leave userId
        · rw [if_neg (by simp [Audience.reaches, hr])]
          simp only [emit, Gateway.setPresence, Function.update_of_ne (Ne.symm hr)]
          exact hview
    · exact .quiet (setPresence_users (by intro e; rfl) s r) rfl

theorem follows_leaveRoom (room : JsString) (client i : ι) (s : Gateway ι) (r : JsString) :
    Follows room client s (s.leaveRoom i r) := by
  unfold leaveRoom
  split
  · exact .refl s
  · refine Follows.trans ?_ (follows_dropPresence ..)
    exact .quiet (fun _ => rfl) rfl

/-- The socket of the board hears nothing of its own cursor, the others of a user they know. -/
theorem follows_moveCursor (room : JsString) (client i : ι) (userId : JsString)
    (issueId : Option JsString) (s : Gateway ι) (r : JsString) :
    Follows room client s (s.moveCursor i userId issueId r) := by
  unfold moveCursor
  split
  · exact .refl s
  · rename_i entry hentry
    have hkeys : ∀ q, ((s.setPresence r (updateWhere (·.user.userId == userId)
        (fun e => { e with user := { e.user with cursor := truthy issueId } })
        (s.presence r))).presence q).map PresenceEntry.userId =
          (s.presence q).map PresenceEntry.userId := setPresence_users (by intro e; rfl) s r
    refine Follows.trans (.quiet hkeys rfl) ⟨id, [_], rfl, fun view hview => ?_⟩
    rw [hearAll_single]
    split
    · rename_i hreaches
      have hr : r = room := by
        simp only [Audience.reaches, decide_eq_true_eq] at hreaches
        exact hreaches.2
      subst hr
      refine hview.join _ fun k => ?_
      have hin : entry.user.userId ∈ (s.presence r).map PresenceEntry.userId :=
        List.mem_map_of_mem (List.mem_of_find?_eq_some hentry)
      simp only [emit, hkeys]
      refine (or_iff_left_of_imp ?_).symm
      rintro rfl
      exact hin
    · exact hview

theorem follows_onLeave (room : JsString) (client i : ι) (s : Gateway ι) (projectId : JsString) :
    Follows room client s (s.onLeave i projectId) := by
  unfold onLeave
  split
  · exact .refl s
  · exact .foldl (fun s r => follows_leaveRoom room client i s r) _ s

theorem follows_onCursor (room : JsString) (client i : ι) (s : Gateway ι) (projectId : JsString)
    (issueId : Option JsString) : Follows room client s (s.onCursor i projectId issueId) := by
  unfold onCursor
  split
  · exact .refl s
  · exact .foldl (fun s r => follows_moveCursor room client i _ issueId s r) _ s

theorem follows_handleDisconnect (room : JsString) (client i : ι) (s : Gateway ι) :
    Follows room client s (s.handleDisconnect i) := by
  unfold handleDisconnect
  split
  · exact .refl s
  · exact .foldl (fun s r => follows_leaveRoom room client i s r) _ s

theorem follows_disconnect (room : JsString) (client i : ι) (s : Gateway ι) :
    Follows room client s (s.disconnect i) := by
  unfold disconnect
  split
  · refine Follows.trans ?_ (follows_handleDisconnect ..)
    exact .quiet (fun _ => rfl) rfl
  · exact .refl s

theorem follows_handle (room : JsString) (client : ι) (s : Gateway ι) (e : NodeEvent ι) :
    Follows room client s (s.handle e) := by
  cases e with
  | leave i projectId => exact follows_onLeave room client i s projectId
  | cursor i projectId issueId => exact follows_onCursor room client i s projectId issueId
  | disconnect i => exact follows_disconnect room client i s
  | database db => exact .quiet (fun _ => rfl) rfl

/-! ### An entry -/

section Entry

variable {i : ι} {data : SocketData} (projectId organizationId : JsString) (seen : Db)

theorem enter_emitted (hd : (s.socket i).data = some data) :
    (s.enter i projectId organizationId seen).emitted = s.emitted ++
      [(.client i, .sync (((s.enter i projectId organizationId seen).presence
          (projectRoom organizationId projectId)).map PresenceEntry.user)),
        (.others i (projectRoom organizationId projectId), .join data.me)] := by
  obtain ⟨s', _, _, _, hemitted, heq⟩ := enter_eq projectId organizationId seen hd
  have hadd : (s'.addPresence (projectRoom organizationId projectId) data.me).emitted =
      s'.emitted := by
    unfold addPresence
    split <;> rfl
  rw [heq]
  simp only [emit, hadd, hemitted, List.append_assoc, List.cons_append, List.nil_append]

theorem Keyed.enter (h : s.Keyed) (hd : (s.socket i).data = some data) :
    (s.enter i projectId organizationId seen).Keyed := by
  unfold Keyed
  rw [enter_presence projectId organizationId seen hd]
  exact (Function.forall_update_iff s.presence fun _ => UniqueKey PresenceEntry.userId).2
    ⟨unique_acquire (h _) fun _ => rfl, fun r _ => h r⟩

/-- Another socket enters. -/
theorem follows_enter (room : JsString) (hd : (s.socket i).data = some data) (hi : i ≠ client) :
    Follows room client s (s.enter i projectId organizationId seen) := by
  refine ⟨fun h => h.enter projectId organizationId seen hd, _,
    enter_emitted projectId organizationId seen hd, fun view hview => ?_⟩
  have hsync : ¬Audience.reaches room client (.client i) = true := by
    simp [Audience.reaches, hi]
  rw [← List.singleton_append, hearAll_append, hearAll_single, hearAll_single, if_neg hsync,
    enter_presence projectId organizationId seen hd]
  by_cases hr : projectRoom organizationId projectId = room
  · subst hr
    rw [if_pos (by simp [Audience.reaches, hi]), Function.update_self]
    exact hview.join data.me fun k => mem_acquire fun _ => rfl
  · rw [if_neg (by simp [Audience.reaches, hr]), Function.update_of_ne (Ne.symm hr)]
    exact hview

end Entry

end Gateway

end Follow

/-! ### Boards -/

/-- Whom an event reaches.  A handler changes the rooms of its own socket before it sends anything
to them, so the rooms after the handler decide. -/
def Gateway.hears {ι : Type*} [DecidableEq ι] (s : Gateway ι) (client : ι) : Audience ι → Bool
  | .client i => decide (i = client) && (s.socket client).connected
  | .others i room => decide (i ≠ client ∧ room ∈ (s.socket client).joined)
  | .room room => decide (room ∈ (s.socket client).joined)

/-- The boards of the sockets of a node, and the events on their way to them. -/
structure Boards (τ ι : Type*) where
  node : GatewayPool τ ι
  /-- The `presence` of `useState`. -/
  presence : ι → List PresenceUser
  inbox : ι → List PresenceEvent

inductive BoardsAction (τ ι : Type*) where
  | node (a : SessionAction τ ι)
  | deliver (client : ι)

section Model

variable {τ ι : Type*} [DecidableEq τ] [DecidableEq ι]

namespace Boards

/-- The node goes on, and what it has sent is on its way. -/
def send (s : Boards τ ι) (node : GatewayPool τ ι) : Boards τ ι where
  node := node
  presence := s.presence
  inbox i := s.inbox i ++
    ((node.store.emitted.drop s.node.store.emitted.length).filter fun n =>
      node.store.hears i n.1).map Prod.snd

def next (verify : JsString → Option JsString) (s : Boards τ ι) :
    BoardsAction τ ι → Boards τ ι
  | .node (.run t) => s.send (s.node.advance (Gateway.step verify) t)
  | .node (.event e) => s.send { s.node with store := s.node.store.handle e }
  | .deliver client =>
      match s.inbox client with
      | [] => s
      | event :: rest =>
          { s with
            presence := Function.update s.presence client
              (setPresence event (s.presence client))
            inbox := Function.update s.inbox client rest }

/-- Messages are dispatched for connected sockets. -/
def Sends (s : Boards τ ι) : Task ι → Prop
  | .join client _ => (s.node.store.socket client).connected = true
  | _ => True

def Enabled (s : Boards τ ι) : BoardsAction τ ι → Prop
  | .node (.run t) => s.Sends (s.node.thread t)
  | .node (.event e) => ∀ client ∈ e.sender, (s.node.store.socket client).connected = true
  | .deliver _ => True

instance (s : Boards τ ι) : ∀ task, Decidable (s.Sends task)
  | .join _ _ => inferInstanceAs (Decidable (_ = _))
  | .lookup _ _ _ | .enterRoom _ _ _ _ _ | .connect _ _ | .findUser _ _ | .attach _ _ | .done =>
      isTrue trivial

instance (s : Boards τ ι) : ∀ a, Decidable (s.Enabled a)
  | .node (.run t) => inferInstanceAs (Decidable (s.Sends (s.node.thread t)))
  | .node (.event _) => inferInstanceAs (Decidable (∀ _ ∈ NodeEvent.sender _, _ = _))
  | .deliver _ => isTrue trivial

/-- The socket is not in two rooms. -/
def OneRoom (client : ι) (s : Boards τ ι) : Prop :=
  ∀ room ∈ (s.node.store.socket client).joined,
    ∀ room' ∈ (s.node.store.socket client).joined, room = room'

instance (client : ι) (s : Boards τ ι) : Decidable (s.OneRoom client) :=
  inferInstanceAs (Decidable (∀ _ ∈ _, ∀ _ ∈ _, _ = _))

end Boards

/-- One step of the node or of a board. -/
abbrev BoardsStep (verify : JsString → Option JsString) :
    Boards τ ι → BoardsAction τ ι → Boards τ ι → Prop :=
  Steps Boards.Enabled (Boards.next verify)

/-- Every `handleConnection` is through, no join is dispatched, and nothing is on its way. -/
structure BoardsStart (s : Boards τ ι) : Prop where
  opened : Opened s.node.store
  tasks : ∀ t, ∃ client projectId, s.node.thread t = .join client projectId
  inbox : ∀ i, s.inbox i = []

namespace Boards

/-- The board with everything delivered. -/
def settled (s : Boards τ ι) (client : ι) : List PresenceUser :=
  (s.inbox client).foldl (fun view event => setPresence event view) (s.presence client)

/-- Sockets have data, and are in no room when closed. -/
structure Housed (g : Gateway ι) : Prop where
  attached : ∀ i, ∃ data, (g.socket i).data = some data
  closed : ∀ i, (g.socket i).connected = false → (g.socket i).joined = []

theorem Housed.update {g g' : Gateway ι} (h : Housed g) {i : ι} {state : SocketState}
    (hsocket : g'.socket = Function.update g.socket i state) {data : SocketData}
    (hstate : state.data = some data) (hclosed : state.connected = false → state.joined = []) :
    Housed g' := by
  constructor
  · rw [hsocket]
    exact (Function.forall_update_iff g.socket fun _ state => ∃ data, state.data = some data).2
      ⟨⟨data, hstate⟩, fun j _ => h.attached j⟩
  · rw [hsocket]
    exact (Function.forall_update_iff g.socket fun _ state =>
      state.connected = false → state.joined = []).2 ⟨hclosed, fun j _ => h.closed j⟩

/-- What every step keeps for the board of `client`. -/
structure Attuned (client : ι) (s : Boards τ ι) : Prop where
  housed : Housed s.node.store
  joins : ∀ t, (s.node.thread t).connecting = none
  keyed : s.node.store.Keyed
  shows : s.OneRoom client → ∀ room ∈ (s.node.store.socket client).joined,
    ShowsRoom (s.settled client) (s.node.store.presence room)

variable {s : Boards τ ι} {client : ι} {node : GatewayPool τ ι} {room : JsString}

/-- In one room only, a socket hears what reaches that room. -/
theorem hears_eq_reaches {g : Gateway ι} (hc : (g.socket client).connected = true)
    (hroom : room ∈ (g.socket client).joined)
    (hone : ∀ r ∈ (g.socket client).joined, r = room) (audience : Audience ι) :
    g.hears client audience = audience.reaches room client := by
  have hmem : ∀ r, r ∈ (g.socket client).joined ↔ r = room :=
    fun r => ⟨hone r, fun hr => hr ▸ hroom⟩
  cases audience with
  | client i => simp [Gateway.hears, Audience.reaches, hc]
  | others i r => simp [Gateway.hears, Audience.reaches, hmem]
  | room r => simp [Gateway.hears, Audience.reaches, hmem]

omit [DecidableEq τ] in
theorem settled_send {news : List (Audience ι × PresenceEvent)}
    (hemitted : node.store.emitted = s.node.store.emitted ++ news) :
    (s.send node).settled client = hearAll (node.store.hears client) news (s.settled client) := by
  rw [settled, send, hemitted, List.drop_left]
  exact List.foldl_append ..

omit [DecidableEq τ] in
/-- A board that enters no room follows the node. -/
theorem Attuned.send (h : s.Attuned client) (hone : s.OneRoom client)
    (hhoused : Housed node.store) (hjoins : ∀ t, (node.thread t).connecting = none)
    (hfollows : ∀ room, Gateway.Follows room client s.node.store node.store)
    (hstay : ∀ room ∈ (node.store.socket client).joined,
      room ∈ (s.node.store.socket client).joined) : (s.send node).Attuned client := by
  refine ⟨hhoused, hjoins, (hfollows []).keyed h.keyed, fun _ room hroom => ?_⟩
  have hc : (node.store.socket client).connected = true := by
    by_contra hc
    have hnil := hhoused.closed client (by simpa using hc)
    exact absurd (hnil ▸ hroom) List.not_mem_nil
  have hold := hstay room hroom
  obtain ⟨news, hemitted, hnews⟩ := (hfollows room).news
  have hhears : node.store.hears client = Audience.reaches room client := by
    funext audience
    exact hears_eq_reaches hc hroom (fun r hr => hone r (hstay r hr) room hold) audience
  rw [settled_send hemitted, hhears]
  exact hnews _ (h.shows hone room hold)

omit [DecidableEq τ] in
theorem Attuned.update (h : s.Attuned client) (hone : s.OneRoom client) {i : ι}
    {state : SocketState}
    (hsocket : node.store.socket = Function.update s.node.store.socket i state)
    {data : SocketData} (hstate : state.data = some data)
    (hclosed : state.connected = false → state.joined = [])
    (hjoins : ∀ t, (node.thread t).connecting = none)
    (hfollows : ∀ room, Gateway.Follows room client s.node.store node.store)
    (hstay : i = client → ∀ room ∈ state.joined, room ∈ (s.node.store.socket i).joined) :
    (s.send node).Attuned client := by
  refine h.send hone (h.housed.update hsocket hstate hclosed) hjoins hfollows fun room hroom => ?_
  rw [hsocket] at hroom
  by_cases hi : i = client
  · rw [← hi, Function.update_self] at hroom
    exact hi ▸ hstay hi room hroom
  · rwa [Function.update_of_ne (Ne.symm hi)] at hroom

omit [DecidableEq τ] in
/-- The sockets stay as they are. -/
theorem Attuned.still (h : s.Attuned client) (hone : s.OneRoom client)
    (hsocket : node.store.socket = s.node.store.socket)
    (hjoins : ∀ t, (node.thread t).connecting = none)
    (hfollows : ∀ room, Gateway.Follows room client s.node.store node.store) :
    (s.send node).Attuned client := by
  obtain ⟨data, hd⟩ := h.housed.attached client
  refine h.update hone (i := client) (hsocket.trans (Function.update_eq_self client _).symm) hd
    (h.housed.closed client) hjoins hfollows fun _ room hroom => hroom

omit [DecidableEq τ] in
/-- A board that enters a room is told its users. -/
theorem Attuned.enter (h : s.Attuned client) {data : SocketData}
    (hd : (s.node.store.socket client).data = some data) (projectId organizationId : JsString)
    (seen : Db) (hjoins : ∀ t, (node.thread t).connecting = none)
    (hstore : node.store = s.node.store.enter client projectId organizationId seen) :
    (s.send node).Attuned client := by
  have hsocket := Gateway.enter_socket projectId organizationId seen hd
  have hjoined : (node.store.socket client).connected = (s.node.store.socket client).connected ∧
      (node.store.socket client).joined = if (s.node.store.socket client).connected then
        (s.node.store.socket client).joined ++ [projectRoom organizationId projectId]
      else (s.node.store.socket client).joined := by
    rw [hstore, hsocket, Function.update_self]
    exact ⟨rfl, rfl⟩
  have hkeyed : node.store.Keyed := hstore ▸ h.keyed.enter projectId organizationId seen hd
  have hhoused : Housed node.store := by
    refine h.housed.update (hstore ▸ hsocket) rfl fun hc => ?_
    simp only [SocketState.inside] at hc ⊢
    rw [hc]
    exact h.housed.closed client hc
  refine ⟨hhoused, hjoins, hkeyed, fun hone room hroom => ?_⟩
  have hc : (s.node.store.socket client).connected = true := by
    by_contra hc
    have hnil := hhoused.closed client (hjoined.1.trans (by simpa using hc))
    exact absurd (hnil ▸ hroom) List.not_mem_nil
  have hentered : projectRoom organizationId projectId ∈ (node.store.socket client).joined := by
    rw [hjoined.2, if_pos hc]
    exact List.mem_append_right _ (List.mem_singleton_self _)
  obtain rfl := hone room hroom _ hentered
  have hemitted := Gateway.enter_emitted projectId organizationId seen hd
  rw [← hstore] at hemitted
  have hhears : node.store.hears client =
      Audience.reaches (projectRoom organizationId projectId) client := by
    funext audience
    exact hears_eq_reaches (hjoined.1.trans hc) hentered
      (fun r hr => hone r hr _ hentered) audience
  have hjoin : ¬Audience.reaches (projectRoom organizationId projectId) client
      (.others client (projectRoom organizationId projectId)) = true := by
    simp [Audience.reaches]
  rw [settled_send hemitted, hhears, ← List.singleton_append, hearAll_append, hearAll_single,
    hearAll_single, if_neg hjoin, if_pos (by simp [Audience.reaches])]
  exact showsRoom_sync (hkeyed _)

/-- A delivery changes nothing but what is still to be delivered. -/
theorem deliver_eq (verify : JsString → Option JsString) (s : Boards τ ι) (i client : ι) :
    (s.next verify (.deliver i)).node = s.node ∧
      (s.next verify (.deliver i)).settled client = s.settled client := by
  simp only [next]
  split
  · exact ⟨rfl, rfl⟩
  · rename_i event rest hinbox
    refine ⟨rfl, ?_⟩
    by_cases hi : client = i
    · subst hi
      simp only [settled, Function.update_self, hinbox, List.foldl_cons]
    · simp only [settled, Function.update_of_ne hi]

theorem Attuned.run (verify : JsString → Option JsString) (h : s.Attuned client)
    (hone : s.OneRoom client) (t : τ) : (s.next verify (.node (.run t))).Attuned client := by
  have hjoins : ∀ task : Task ι, task.connecting = none →
      ∀ t', (Function.update s.node.thread t task t').connecting = none := by
    intro task htask t'
    by_cases ht : t' = t
    · rwa [ht, Function.update_self]
    · rw [Function.update_of_ne ht]
      exact h.joins t'
  cases ht : s.node.thread t with
  | join i projectId =>
      simp only [next, Pool.advance, ht, Gateway.step]
      exact h.still hone rfl (hjoins _ rfl) fun room => .refl _
  | lookup i projectId userId =>
      simp only [next, Pool.advance, ht, Gateway.step]
      cases s.node.store.db.joinLookup projectId userId with
      | none => exact h.still hone rfl (hjoins _ rfl) fun room => .refl _
      | some organizationId => exact h.still hone rfl (hjoins _ rfl) fun room => .refl _
  | enterRoom i projectId userId organizationId seen =>
      obtain ⟨data, hd⟩ := h.housed.attached i
      simp only [next, Pool.advance, ht, Gateway.step]
      by_cases hi : i = client
      · subst hi
        exact h.enter hd projectId organizationId seen (hjoins _ rfl) rfl
      · refine h.update hone (Gateway.enter_socket projectId organizationId seen hd) rfl
          (fun hc => ?_) (hjoins _ rfl)
          (fun room => Gateway.follows_enter projectId organizationId seen room hd hi)
          fun hclient => absurd hclient hi
        simp only [SocketState.inside] at hc ⊢
        rw [hc]
        exact h.housed.closed i hc
  | done =>
      simp only [next, Pool.advance, ht, Gateway.step]
      exact h.still hone rfl (hjoins _ rfl) fun room => .refl _
  | connect i token => exact absurd (h.joins t) (by simp [ht, Task.connecting])
  | findUser i sub => exact absurd (h.joins t) (by simp [ht, Task.connecting])
  | attach i user => exact absurd (h.joins t) (by simp [ht, Task.connecting])

omit [DecidableEq τ] in
theorem Attuned.handle (h : s.Attuned client) (hone : s.OneRoom client) (e : NodeEvent ι) :
    (s.send { s.node with store := s.node.store.handle e }).Attuned client := by
  have hfollows : ∀ room, Gateway.Follows room client s.node.store
      (s.node.store.handle e) := fun room => Gateway.follows_handle room client _ e
  cases e with
  | leave i projectId =>
      obtain ⟨data, hd⟩ := h.housed.attached i
      refine h.update hone (Gateway.onLeave_socket hd projectId) rfl (fun hc => ?_)
        h.joins hfollows fun _ room hroom => List.mem_of_mem_filter hroom
      exact (congrArg _ (h.housed.closed i hc)).trans List.filter_nil
  | cursor i projectId issueId =>
      exact h.still hone (Gateway.onCursor_socket ..) h.joins hfollows
  | disconnect i =>
      obtain ⟨data, hd⟩ := h.housed.attached i
      by_cases hc : (s.node.store.socket i).connected = true
      · exact h.update hone (Gateway.disconnect_socket hd hc) rfl (fun _ => rfl) h.joins
          hfollows fun _ room hroom => absurd hroom List.not_mem_nil
      · have hsame : s.node.store.handle (.disconnect i) = s.node.store := if_neg hc
        exact h.still hone (congrArg Gateway.socket hsame) h.joins hfollows
  | database db => exact h.still hone rfl h.joins hfollows

theorem Attuned.step (verify : JsString → Option JsString) (h : s.Attuned client)
    (hone : s.OneRoom client) (a : BoardsAction τ ι) : (s.next verify a).Attuned client := by
  cases a with
  | deliver i =>
      obtain ⟨hnode, hsettled⟩ := deliver_eq verify s i client
      refine ⟨hnode ▸ h.housed, hnode ▸ h.joins, hnode ▸ h.keyed, ?_⟩
      unfold OneRoom
      rw [hnode, hsettled]
      exact h.shows
  | node a =>
      cases a with
      | run t => exact h.run verify hone t
      | event e => exact h.handle hone e

omit [DecidableEq τ] [DecidableEq ι] in
theorem Attuned.start (h : BoardsStart s) (client : ι) : s.Attuned client := by
  refine ⟨⟨fun i => ?_, fun i hc => ?_⟩, fun t => ?_, fun room => ?_, fun _ room hroom => ?_⟩
  · obtain ⟨data, hs, _⟩ := h.opened.sockets i
    exact ⟨data, by rw [hs]⟩
  · obtain ⟨data, hs, _⟩ := h.opened.sockets i
    rw [hs]
  · obtain ⟨i, projectId, ht⟩ := h.tasks t
    rw [ht]
    rfl
  · rw [h.opened.presence room]
    exact List.nodup_nil
  · obtain ⟨data, hs, _⟩ := h.opened.sockets client
    rw [hs] at hroom
    exact absurd hroom List.not_mem_nil

end Boards

/-- **A board in one room shows its users.**  In every run in which the socket is never in two
rooms, with everything delivered the board lists the users of the room's presence, each once. -/
theorem roster_mirrored (verify : JsString → Option JsString) {s₀ s : Boards τ ι}
    {as : List (BoardsAction τ ι)} (client : ι) (room : JsString) (hstart : BoardsStart s₀)
    (hrun : Run (Guarded (BoardsStep verify) fun s _ => s.OneRoom client) s₀ as s)
    (hone : s.OneRoom client) (hdelivered : s.inbox client = [])
    (hroom : room ∈ (s.node.store.socket client).joined) :
    ((s.presence client).map PresenceUser.userId).Nodup ∧
      ∀ userId, userId ∈ (s.presence client).map PresenceUser.userId ↔
        ∃ e ∈ s.node.store.presence room, e.user.userId = userId := by
  have hattuned : s.Attuned client := hrun.invariant (P := Boards.Attuned client)
    (fun s a s' hs hstep => by
      obtain ⟨⟨_, rfl⟩, hone⟩ := hstep
      exact hs.step verify hone a) (.start hstart client)
  have hshows := hattuned.shows hone room hroom
  have hsettled : s.settled client = s.presence client := by
    rw [Boards.settled, hdelivered]
    rfl
  rw [hsettled] at hshows
  exact ⟨hshows.once, fun userId => (hshows.same userId).trans List.mem_map⟩

end Model

/-! ### Two boards -/

namespace PresenceRoster.Samples

open Presence.Samples

def start : Boards Bool Bool where
  node := ⟨opened, fun t => .join t Demo.projectId.val⟩
  presence _ := []
  inbox _ := []

theorem start_ok : BoardsStart start := ⟨opened_ok, fun t => ⟨t, _, rfl⟩, fun _ => rfl⟩

abbrev verify : JsString → Option JsString := some

/-- Both boards join, one of them closes, and the other is told. -/
def visit : List (BoardsAction Bool Bool) :=
  [.node (.run false), .node (.run true), .node (.run true), .node (.run true),
    .node (.run false), .node (.run false), .node (.event (.disconnect true)),
    .deliver false]

end PresenceRoster.Samples

open Presence.Samples PresenceRoster.Samples in
theorem roster_mirrored_visit :
    ((visit.foldl (Boards.next verify) start).presence false).map PresenceUser.userId =
      [Demo.userId.val] ∧
    ∃ e ∈ (visit.foldl (Boards.next verify) start).node.store.presence room,
      e.user.userId = Demo.userId.val := by
  have hshows : ((visit.foldl (Boards.next verify) start).presence false).map
      PresenceUser.userId = [Demo.userId.val] := by decide
  have hrun : Run (Guarded (BoardsStep verify) fun s _ => s.OneRoom false) start visit
      (visit.foldl (Boards.next verify) start) := Along.guarded (by decide)
  have hmirrored := roster_mirrored verify false room start_ok hrun (by decide) (by decide)
    (by decide)
  refine ⟨hshows, (hmirrored.2 _).1 ?_⟩
  rw [hshows]
  exact List.mem_singleton_self _

end PmSaas
