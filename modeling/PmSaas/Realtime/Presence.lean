import Mathlib.Data.Fintype.Basic
import Mathlib.Data.Finset.Card
import PmSaas.Lib.RefCount
import PmSaas.Realtime.RoomAccess

/-!
# Counting the sockets of a room

`presence` counts the sockets of each user in a room, and `client.data.rooms` remembers the rooms
of each socket.  A room's presence is a roster of reference counts: entering acquires a reference
for the user and leaving releases it, so the two agree (`PresenceExact`) as long as every entry is
into a room the socket was not in.  A repeated `project:join` is counted twice
(`Counted.rejoin`).

* `leaveRooms_socket`, `enter_socket`, `enter_presence` — what leaving and entering do;
* `Counted.leaveRooms`, `Counted.enter`, `Counted.handle` — the counts after one event;
* `presence_exact_of_fresh` — in every run whose joins are of rooms the socket is not in, the
  presence is exact in every state.
-/

namespace PmSaas

open RefCount Table TransitionSystem

def PresenceEntry.userId (e : PresenceEntry) : JsString := e.user.userId

/-- `existing.sockets += 1`. -/
def PresenceEntry.more (e : PresenceEntry) : PresenceEntry := { e with sockets := e.sockets + 1 }

/-- `entry.sockets -= 1`. -/
def PresenceEntry.fewer (e : PresenceEntry) : PresenceEntry := { e with sockets := e.sockets - 1 }

/-- The socket out of the rooms `left`. -/
def SocketState.without (state : SocketState) (data : SocketData) (left : List JsString) :
    SocketState :=
  { state with
    joined := state.joined.filter (· ∉ left)
    data := some { data with rooms := data.rooms.filter (· ∉ left) } }

theorem SocketState.without_cons (state : SocketState) (data : SocketData) (room : JsString)
    (left : List JsString) :
    (state.without data [room]).without
      { data with rooms := data.rooms.filter (· ∉ [room]) } left =
        state.without data (room :: left) := by
  have hfilter : ∀ l : List JsString,
      (l.filter (· ∉ [room])).filter (· ∉ left) = l.filter (· ∉ room :: left) := by
    intro l
    rw [List.filter_filter]
    refine List.filter_congr fun r _ => ?_
    simp only [List.mem_cons, List.not_mem_nil, or_false, not_or, Bool.decide_and]
    exact Bool.and_comm ..
  simp only [SocketState.without, hfilter]

/-- The socket in a further room; a closed socket is not put into it. -/
def SocketState.inside (state : SocketState) (data : SocketData) (room : JsString) : SocketState :=
  { state with
    joined := if state.connected then state.joined ++ [room] else state.joined
    data := some { data with
      rooms := if room ∈ data.rooms then data.rooms else data.rooms ++ [room] } }

/-- `me` of `onJoin`. -/
def SocketData.me (data : SocketData) : PresenceUser :=
  ⟨data.userId, data.name, data.avatarUrl, none⟩

namespace Gateway

variable {ι : Type*}

/-- `client.data.rooms`. -/
def rooms (s : Gateway ι) (client : ι) : List JsString :=
  (s.socket client).data.elim [] SocketData.rooms

/-- The sockets counted for a user in a room, `0` without an entry. -/
def sockets (s : Gateway ι) (room userId : JsString) : ℤ :=
  ((s.presence room).find? (·.userId == userId)).elim 0 PresenceEntry.sockets

/-! ### Presence as a roster -/

theorem dropPresence_presence (s : Gateway ι) (room userId : JsString) :
    (s.dropPresence room userId).presence = Function.update s.presence room
      (release PresenceEntry.userId PresenceEntry.sockets PresenceEntry.fewer userId
        (s.presence room)) := by
  have hfind : (s.presence room).find? (fun e => e.userId == userId) =
      (s.presence room).find? (fun e => e.user.userId == userId) := rfl
  simp only [dropPresence, release, hfind]
  cases (s.presence room).find? (·.user.userId == userId) with
  | none => exact (Function.update_eq_self room s.presence).symm
  | some entry =>
      simp only
      split <;> rfl

theorem dropPresence_socket (s : Gateway ι) (room userId : JsString) :
    (s.dropPresence room userId).socket = s.socket := by
  unfold dropPresence
  split
  · rfl
  · split <;> rfl

theorem dropPresence_db (s : Gateway ι) (room userId : JsString) :
    (s.dropPresence room userId).db = s.db := by
  unfold dropPresence
  split
  · rfl
  · split <;> rfl

theorem addPresence_presence (s : Gateway ι) (room : JsString) (user : PresenceUser) :
    (s.addPresence room user).presence = Function.update s.presence room
      (acquire PresenceEntry.userId PresenceEntry.more ⟨user, 1⟩ (s.presence room)) := by
  unfold addPresence acquire
  show _ = Function.update s.presence room
    (if (s.presence room).any (·.user.userId == user.userId) then _ else _)
  split <;> rfl

theorem addPresence_socket (s : Gateway ι) (room : JsString) (user : PresenceUser) :
    (s.addPresence room user).socket = s.socket := by
  unfold addPresence
  split <;> rfl

theorem addPresence_db (s : Gateway ι) (room : JsString) (user : PresenceUser) :
    (s.addPresence room user).db = s.db := by
  unfold addPresence
  split <;> rfl

/-! ### Leaving -/

section Leaving

variable [DecidableEq ι] {s : Gateway ι} {client : ι} {data : SocketData}

theorem leaveRoom_eq (hd : (s.socket client).data = some data) (room : JsString) :
    s.leaveRoom client room =
      (s.setSocket client ((s.socket client).without data [room])).dropPresence room
        data.userId := by
  have hfilter : ∀ l : List JsString, l.filter (· != room) = l.filter (· ∉ [room]) := by
    intro l
    refine List.filter_congr fun r _ => ?_
    by_cases hr : r = room <;> simp [hr]
  simp only [leaveRoom, hd, SocketState.without, hfilter]

theorem leaveRoom_socket (hd : (s.socket client).data = some data) (room : JsString) :
    (s.leaveRoom client room).socket =
      Function.update s.socket client ((s.socket client).without data [room]) := by
  rw [leaveRoom_eq hd, dropPresence_socket]
  rfl

theorem leaveRoom_presence (hd : (s.socket client).data = some data) (room : JsString) :
    (s.leaveRoom client room).presence = Function.update s.presence room
      (release PresenceEntry.userId PresenceEntry.sockets PresenceEntry.fewer data.userId
        (s.presence room)) := by
  rw [leaveRoom_eq hd, dropPresence_presence]
  rfl

theorem leaveRoom_db (s : Gateway ι) (client : ι) (room : JsString) :
    (s.leaveRoom client room).db = s.db := by
  unfold leaveRoom
  split
  · rfl
  · rw [dropPresence_db]
    rfl

omit [DecidableEq ι] in
theorem without_nil (hd : (s.socket client).data = some data) :
    (s.socket client).without data [] = s.socket client := by
  have hall : ∀ l : List JsString, l.filter (· ∉ ([] : List JsString)) = l := by
    intro l
    simp
  simp only [SocketState.without, hall]
  rw [← hd]

/-- A socket that leaves rooms is in the others. -/
theorem leaveRooms_socket (hd : (s.socket client).data = some data) (left : List JsString) :
    (left.foldl (leaveRoom client) s).socket =
      Function.update s.socket client ((s.socket client).without data left) := by
  induction left generalizing s data with
  | nil =>
      rw [without_nil hd, Function.update_eq_self]
      rfl
  | cons room left ih =>
      have hsocket := leaveRoom_socket hd room
      have hd' : ((s.leaveRoom client room).socket client).data =
          some { data with rooms := data.rooms.filter (· ∉ [room]) } := by
        rw [hsocket, Function.update_self]
        rfl
      rw [List.foldl_cons, ih hd', hsocket, Function.update_self, Function.update_idem,
        SocketState.without_cons]

theorem leaveRooms_db (s : Gateway ι) (client : ι) (left : List JsString) :
    (left.foldl (leaveRoom client) s).db = s.db := by
  induction left generalizing s with
  | nil => rfl
  | cons room left ih => exact (ih _).trans (s.leaveRoom_db client room)

end Leaving

/-! ### Entering -/

section Entering

variable [DecidableEq ι] {s : Gateway ι} {client : ι} {data : SocketData}
  (projectId organizationId : JsString) (seen : Db)

/-- What is left of `enter` for a socket with data. -/
theorem enter_eq (hd : (s.socket client).data = some data) :
    ∃ s' : Gateway ι, s'.socket = Function.update s.socket client
        ((s.socket client).inside data (projectRoom organizationId projectId)) ∧
      s'.presence = s.presence ∧ s'.db = s.db ∧ s'.emitted = s.emitted ∧
      s.enter client projectId organizationId seen =
        ((s'.addPresence (projectRoom organizationId projectId) data.me).emit (.client client)
          (.sync (((s'.addPresence (projectRoom organizationId projectId) data.me).presence
            (projectRoom organizationId projectId)).map PresenceEntry.user))).emit
              (.others client (projectRoom organizationId projectId)) (.join data.me) := by
  unfold enter joinRoom
  by_cases hc : (s.socket client).connected = true
  · simp only [if_pos hc, setSocket, Function.update_self, hd, Function.update_idem]
    refine ⟨_, ?_, ?_, ?_, ?_, rfl⟩
    · simp only [SocketState.inside, if_pos hc]
    all_goals rfl
  · simp only [if_neg hc, hd, setSocket]
    refine ⟨_, ?_, ?_, ?_, ?_, rfl⟩
    · simp only [SocketState.inside, if_neg hc]
    all_goals rfl

theorem enter_socket (hd : (s.socket client).data = some data) :
    (s.enter client projectId organizationId seen).socket = Function.update s.socket client
      ((s.socket client).inside data (projectRoom organizationId projectId)) := by
  obtain ⟨s', hsocket, _, _, _, heq⟩ := enter_eq projectId organizationId seen hd
  rw [heq]
  exact (addPresence_socket ..).trans hsocket

theorem enter_connected (hd : (s.socket client).data = some data) (i : ι) :
    ((s.enter client projectId organizationId seen).socket i).connected =
      (s.socket i).connected := by
  rw [enter_socket projectId organizationId seen hd]
  by_cases hi : i = client
  · subst hi
    rw [Function.update_self]
    rfl
  · rw [Function.update_of_ne hi]

theorem enter_presence (hd : (s.socket client).data = some data) :
    (s.enter client projectId organizationId seen).presence =
      Function.update s.presence (projectRoom organizationId projectId)
        (acquire PresenceEntry.userId PresenceEntry.more ⟨data.me, 1⟩
          (s.presence (projectRoom organizationId projectId))) := by
  obtain ⟨s', _, hpresence, _, _, heq⟩ := enter_eq projectId organizationId seen hd
  rw [heq]
  refine (addPresence_presence ..).trans ?_
  rw [hpresence]

theorem enter_db (s : Gateway ι) (client : ι) :
    (s.enter client projectId organizationId seen).db = s.db := by
  have hjoin : (s.joinRoom client projectId organizationId seen).db = s.db := by
    unfold joinRoom
    split <;> rfl
  unfold enter
  simp only
  split
  · exact hjoin
  · exact (addPresence_db ..).trans hjoin

end Entering

/-! ### The sockets a room counts -/

section Counting

variable [Fintype ι] {s : Gateway ι} {client : ι} {data : SocketData}

/-- The sockets of a user that have the room. -/
def holders (s : Gateway ι) (room userId : JsString) : Finset ι :=
  Finset.univ.filter fun i => s.userOf i = some userId ∧ room ∈ s.rooms i

/-- Those of them that are connected. -/
def present (s : Gateway ι) (room userId : JsString) : Finset ι :=
  Finset.univ.filter fun i =>
    (s.socket i).connected = true ∧ s.userOf i = some userId ∧ room ∈ s.rooms i

/-- For every room and user the count is the number of the connected sockets of the user that have
the room, and the user has an entry exactly when there is one. -/
def PresenceExact (s : Gateway ι) : Prop :=
  ∀ room userId, s.sockets room userId = (s.present room userId).card ∧
    ((∃ e ∈ s.presence room, e.userId = userId) ↔ 0 < (s.present room userId).card)

/-- Every room is a roster of its holders. -/
def Tallied (s : Gateway ι) : Prop :=
  ∀ room, Exact PresenceEntry.userId PresenceEntry.sockets (s.presence room) fun userId =>
    (s.holders room userId).card

/-- What every event keeps: sockets have data, list no room twice and none when closed. -/
structure Counted (s : Gateway ι) : Prop where
  attached : ∀ i, ∃ data, (s.socket i).data = some data
  distinct : ∀ i, (s.rooms i).Nodup
  closed : ∀ i, (s.socket i).connected = false → s.rooms i = []
  tallied : s.Tallied

theorem Counted.present_eq (h : s.Counted) (room userId : JsString) :
    s.present room userId = s.holders room userId := by
  refine Finset.filter_congr fun i _ => ?_
  constructor
  · exact fun hi => hi.2
  · intro hi
    refine ⟨?_, hi⟩
    by_contra hc
    rw [h.closed i (by simpa using hc)] at hi
    exact absurd hi.2 List.not_mem_nil

theorem Counted.exact (h : s.Counted) : s.PresenceExact := by
  intro room userId
  rw [h.present_eq]
  exact ⟨(h.tallied room).find?_count userId, (h.tallied room).mem_iff⟩

omit [Fintype ι] in
theorem userOf_of_data (hd : (s.socket client).data = some data) :
    s.userOf client = some data.userId := by
  rw [userOf, hd]
  rfl

omit [Fintype ι] in
theorem rooms_of_data (hd : (s.socket client).data = some data) : s.rooms client = data.rooms := by
  rw [rooms, hd]
  rfl

variable [DecidableEq ι] {s' : Gateway ι}

/-- A change of one socket's rooms, as its holders see it. -/
theorem holders_update (hd : (s.socket client).data = some data) (data' : SocketData)
    {state : SocketState} (hsocket : s'.socket = Function.update s.socket client state)
    (hstate : state.data = some data') (huser : data'.userId = data.userId) (room : JsString)
    (hroom : ∀ r, r ≠ room → (r ∈ data'.rooms ↔ r ∈ data.rooms)) (r userId : JsString) :
    s'.holders r userId =
      if r = room ∧ userId = data.userId then
        if room ∈ data'.rooms then insert client (s.holders r userId)
        else (s.holders r userId).erase client
      else s.holders r userId := by
  have hself : s'.userOf client = some data.userId ∧ s'.rooms client = data'.rooms := by
    rw [userOf, rooms, hsocket, Function.update_self, hstate]
    exact ⟨congrArg some huser, rfl⟩
  have hother : ∀ i, i ≠ client → s'.userOf i = s.userOf i ∧ s'.rooms i = s.rooms i := by
    intro i hi
    rw [userOf, rooms, hsocket, Function.update_of_ne hi]
    exact ⟨rfl, rfl⟩
  ext i
  by_cases hi : i = client
  · subst hi
    have hmem : i ∈ s'.holders r userId ↔ data.userId = userId ∧ r ∈ data'.rooms := by
      simp [holders, hself]
    have hmem' : i ∈ s.holders r userId ↔ data.userId = userId ∧ r ∈ data.rooms := by
      simp [holders, userOf_of_data hd, rooms_of_data hd]
    split_ifs with hru hin
    · rw [hmem, hru.1]
      simp [hru.2, hin]
    · rw [hmem, hru.1]
      simp [hin]
    · rw [hmem, hmem']
      refine and_congr_right fun huser => hroom r fun hr => hru ⟨hr, huser.symm⟩
  · have hmem : i ∈ s'.holders r userId ↔ i ∈ s.holders r userId := by
      simp [holders, hother i hi]
    split_ifs <;> simp [hmem, hi]

/-- **Leaving a room the socket has gives its reference back.** -/
theorem Tallied.leaveRoom (h : s.Tallied) (hd : (s.socket client).data = some data)
    {room : JsString} (hroom : room ∈ data.rooms) : (s.leaveRoom client room).Tallied := by
  intro r
  have hholders := holders_update hd { data with rooms := data.rooms.filter (· ∉ [room]) }
    (leaveRoom_socket hd room) rfl rfl room (fun r hr => by simp [hr]) r
  have hin : client ∈ s.holders room data.userId := by
    simp [holders, userOf_of_data hd, rooms_of_data hd, hroom]
  rw [leaveRoom_presence hd room]
  by_cases hr : r = room
  · subst hr
    have hcard : (fun userId => ((s.leaveRoom client r).holders r userId).card) =
        Function.update (fun userId => (s.holders r userId).card) data.userId
          ((s.holders r data.userId).card - 1) := by
      funext userId
      rw [hholders userId]
      by_cases hu : userId = data.userId
      · subst hu
        rw [Function.update_self, if_pos ⟨rfl, rfl⟩, if_neg (by simp), Finset.card_erase_of_mem hin]
      · rw [Function.update_of_ne hu, if_neg fun hru => hu hru.2]
    rw [hcard, Function.update_self]
    exact (h r).release (Finset.card_pos.2 ⟨client, hin⟩) (fun _ => rfl) fun _ => rfl
  · have hcard : (fun userId => ((s.leaveRoom client room).holders r userId).card) =
        fun userId => (s.holders r userId).card := by
      funext userId
      rw [hholders userId, if_neg fun hru => hr hru.1]
    rw [hcard, Function.update_of_ne hr]
    exact h r

theorem Tallied.leaveRooms (h : s.Tallied) (hd : (s.socket client).data = some data)
    {left : List JsString} (hnodup : left.Nodup) (hsub : ∀ room ∈ left, room ∈ data.rooms) :
    (left.foldl (Gateway.leaveRoom client) s).Tallied := by
  induction left generalizing s data with
  | nil => exact h
  | cons room left ih =>
      obtain ⟨hnot, hnodup⟩ := List.nodup_cons.1 hnodup
      have hd' : ((s.leaveRoom client room).socket client).data =
          some { data with rooms := data.rooms.filter (· ∉ [room]) } := by
        rw [leaveRoom_socket hd, Function.update_self]
        rfl
      refine ih (h.leaveRoom hd (hsub room List.mem_cons_self)) hd' hnodup fun r hr => ?_
      have hne : r ≠ room := fun heq => hnot (heq ▸ hr)
      exact List.mem_filter.2 ⟨hsub r (List.mem_cons_of_mem _ hr), by simpa using hne⟩

/-- **Entering a room the socket does not have adds a reference.** -/
theorem Tallied.enter (h : s.Tallied) (hd : (s.socket client).data = some data)
    {projectId organizationId : JsString} (seen : Db)
    (hroom : projectRoom organizationId projectId ∉ data.rooms) :
    (s.enter client projectId organizationId seen).Tallied := by
  intro r
  have hholders := holders_update hd
    { data with rooms := data.rooms ++ [projectRoom organizationId projectId] }
    (enter_socket projectId organizationId seen hd)
    (by simp only [SocketState.inside, if_neg hroom]) rfl (projectRoom organizationId projectId)
    (fun r hr => by simp [hr]) r
  rw [enter_presence projectId organizationId seen hd]
  generalize projectRoom organizationId projectId = room at hroom hholders ⊢
  have hnot : client ∉ s.holders room data.userId := by
    simp [holders, userOf_of_data hd, rooms_of_data hd, hroom]
  by_cases hr : r = room
  · subst hr
    have hcard : (fun userId =>
        ((s.enter client projectId organizationId seen).holders r userId).card) =
          Function.update (fun userId => (s.holders r userId).card) data.userId
            ((s.holders r data.userId).card + 1) := by
      funext userId
      rw [hholders userId]
      by_cases hu : userId = data.userId
      · subst hu
        rw [Function.update_self, if_pos ⟨rfl, rfl⟩, if_pos (by simp),
          Finset.card_insert_of_notMem hnot]
      · rw [Function.update_of_ne hu, if_neg fun hru => hu hru.2]
    rw [hcard, Function.update_self]
    exact (h r).acquire ⟨data.me, 1⟩ rfl (fun _ => rfl) fun _ => rfl
  · have hcard : (fun userId =>
        ((s.enter client projectId organizationId seen).holders r userId).card) =
          fun userId => (s.holders r userId).card := by
      funext userId
      rw [hholders userId, if_neg fun hru => hr hru.1]
    rw [hcard, Function.update_of_ne hr]
    exact h r

omit [DecidableEq ι] in
/-- The same rooms and the same counts. -/
theorem Tallied.congr (h : s.Tallied) (huser : ∀ i, s'.userOf i = s.userOf i)
    (hrooms : ∀ i, s'.rooms i = s.rooms i)
    (hpresence : ∀ room n, Exact PresenceEntry.userId PresenceEntry.sockets (s.presence room) n →
      Exact PresenceEntry.userId PresenceEntry.sockets (s'.presence room) n) : s'.Tallied := by
  intro room
  have hholders : ∀ userId, s'.holders room userId = s.holders room userId := by
    intro userId
    refine Finset.filter_congr fun i _ => ?_
    rw [huser, hrooms]
  simp only [hholders]
  exact hpresence room _ (h room)

end Counting

/-! ### One event -/

theorem moveCursor_socket (client : ι) (userId : JsString) (issueId : Option JsString)
    (s : Gateway ι) (room : JsString) :
    (s.moveCursor client userId issueId room).socket = s.socket := by
  unfold moveCursor
  split <;> rfl

theorem moveCursors_socket (client : ι) (userId : JsString) (issueId : Option JsString)
    (s : Gateway ι) (rooms : List JsString) :
    (rooms.foldl (moveCursor client userId issueId) s).socket = s.socket := by
  induction rooms generalizing s with
  | nil => rfl
  | cons room rooms ih => exact (ih _).trans (moveCursor_socket client userId issueId s room)

theorem moveCursor_presence (client : ι) (userId : JsString) (issueId : Option JsString)
    (s : Gateway ι) (room r : JsString) {n : JsString → ℕ}
    (h : Exact PresenceEntry.userId PresenceEntry.sockets (s.presence r) n) :
    Exact PresenceEntry.userId PresenceEntry.sockets
      ((s.moveCursor client userId issueId room).presence r) n := by
  unfold moveCursor
  split
  · exact h
  · by_cases hr : r = room
    · subst hr
      simp only [emit, setPresence, Function.update_self]
      exact h.touch (fun _ => rfl) fun _ => rfl
    · simpa only [emit, setPresence, Function.update_of_ne hr] using h

theorem moveCursors_presence (client : ι) (userId : JsString) (issueId : Option JsString)
    (s : Gateway ι) (r : JsString) {n : JsString → ℕ} (rooms : List JsString)
    (h : Exact PresenceEntry.userId PresenceEntry.sockets (s.presence r) n) :
    Exact PresenceEntry.userId PresenceEntry.sockets
      ((rooms.foldl (moveCursor client userId issueId) s).presence r) n := by
  induction rooms generalizing s with
  | nil => exact h
  | cons room rooms ih => exact ih _ (moveCursor_presence client userId issueId s room r h)

theorem moveCursors_db (client : ι) (userId : JsString) (issueId : Option JsString)
    (s : Gateway ι) (rooms : List JsString) :
    (rooms.foldl (moveCursor client userId issueId) s).db = s.db := by
  induction rooms generalizing s with
  | nil => rfl
  | cons room rooms ih =>
      refine (ih _).trans ?_
      unfold moveCursor
      split <;> rfl

theorem onCursor_socket (s : Gateway ι) (client : ι) (projectId : JsString)
    (issueId : Option JsString) : (s.onCursor client projectId issueId).socket = s.socket := by
  unfold onCursor
  split
  · rfl
  · exact moveCursors_socket ..

theorem onCursor_db (s : Gateway ι) (client : ι) (projectId : JsString)
    (issueId : Option JsString) : (s.onCursor client projectId issueId).db = s.db := by
  unfold onCursor
  split
  · rfl
  · exact moveCursors_db ..

theorem onCursor_presence (s : Gateway ι) (client : ι) (projectId : JsString)
    (issueId : Option JsString) (room : JsString) (n : JsString → ℕ)
    (h : Exact PresenceEntry.userId PresenceEntry.sockets (s.presence room) n) :
    Exact PresenceEntry.userId PresenceEntry.sockets
      ((s.onCursor client projectId issueId).presence room) n := by
  unfold onCursor
  split
  · exact h
  · exact moveCursors_presence client _ issueId s room _ h

section Events

variable [DecidableEq ι] {s : Gateway ι} {client : ι} {data : SocketData}

theorem onLeave_socket (hd : (s.socket client).data = some data) (projectId : JsString) :
    (s.onLeave client projectId).socket = Function.update s.socket client
      ((s.socket client).without data (data.rooms.filter (isRoomOf projectId))) := by
  simp only [Gateway.onLeave, hd]
  exact leaveRooms_socket hd _

theorem onLeave_connected (hd : (s.socket client).data = some data) (projectId : JsString)
    (i : ι) :
    ((s.onLeave client projectId).socket i).connected = (s.socket i).connected := by
  rw [onLeave_socket hd]
  by_cases hi : i = client
  · subst hi
    rw [Function.update_self]
    rfl
  · rw [Function.update_of_ne hi]

/-- The socket right after the connection is lost. -/
def close (s : Gateway ι) (client : ι) : Gateway ι :=
  s.setSocket client { s.socket client with connected := false, joined := [] }

theorem disconnect_eq (hd : (s.socket client).data = some data)
    (hc : (s.socket client).connected = true) :
    s.disconnect client = data.rooms.foldl (leaveRoom client) (s.close client) := by
  have hd' : ((s.close client).socket client).data = some data := by
    simp [close, setSocket, hd]
  rw [disconnect, if_pos hc]
  show (s.close client).handleDisconnect client = _
  simp only [handleDisconnect, hd']

theorem disconnect_socket (hd : (s.socket client).data = some data)
    (hc : (s.socket client).connected = true) :
    (s.disconnect client).socket =
      Function.update s.socket client ⟨false, some { data with rooms := [] }, []⟩ := by
  have hsocket : (s.close client).socket = Function.update s.socket client
      { s.socket client with connected := false, joined := [] } := rfl
  have hd' : ((s.close client).socket client).data = some data := by
    rw [hsocket, Function.update_self, ← hd]
  have hnone : data.rooms.filter (· ∉ data.rooms) = [] := by
    simp
  rw [disconnect_eq hd hc, leaveRooms_socket hd', hsocket, Function.update_self,
    Function.update_idem]
  simp only [SocketState.without, hnone, List.filter_nil]

variable [Fintype ι]

/-- A socket's data stays, its rooms change. -/
theorem Counted.update (h : s.Counted) {s' : Gateway ι} {state : SocketState}
    (hsocket : s'.socket = Function.update s.socket client state) {data' : SocketData}
    (hstate : state.data = some data') (hnodup : data'.rooms.Nodup)
    (hclosed : state.connected = false → data'.rooms = []) (htallied : s'.Tallied) :
    s'.Counted := by
  have hself : s'.socket client = state := by rw [hsocket, Function.update_self]
  have hother : ∀ i, i ≠ client → s'.socket i = s.socket i := fun i hi => by
    rw [hsocket, Function.update_of_ne hi]
  have hrooms : s'.rooms client = data'.rooms := rooms_of_data (hself.symm ▸ hstate)
  refine ⟨fun i => ?_, fun i => ?_, fun i hc => ?_, htallied⟩
  · by_cases hi : i = client
    · exact ⟨data', by rw [hi, hself, hstate]⟩
    · rw [hother i hi]
      exact h.attached i
  · by_cases hi : i = client
    · rwa [hi, hrooms]
    · rw [rooms, hother i hi]
      exact h.distinct i
  · by_cases hi : i = client
    · subst hi
      rw [hrooms]
      exact hclosed (hself ▸ hc)
    · rw [hother i hi] at hc
      rw [rooms, hother i hi]
      exact h.closed i hc

theorem Counted.onLeave (h : s.Counted) (client : ι) (projectId : JsString) :
    (s.onLeave client projectId).Counted := by
  obtain ⟨data, hd⟩ := h.attached client
  have hrooms := rooms_of_data hd
  have hnodup : data.rooms.Nodup := hrooms ▸ h.distinct client
  have htallied : (s.onLeave client projectId).Tallied := by
    simp only [Gateway.onLeave, hd]
    exact h.tallied.leaveRooms hd (hnodup.filter _) fun room hroom => List.mem_of_mem_filter hroom
  refine h.update (onLeave_socket hd projectId) rfl (hnodup.filter _) (fun hc => ?_) htallied
  have hnil : data.rooms = [] := hrooms ▸ h.closed client hc
  simp [hnil]

theorem Counted.disconnect (h : s.Counted) (client : ι) : (s.disconnect client).Counted := by
  obtain ⟨data, hd⟩ := h.attached client
  by_cases hc : (s.socket client).connected = true
  · have hd' : ((s.close client).socket client).data = some data := by
      simp [close, setSocket, hd]
    have hsame : ∀ i, (s.close client).userOf i = s.userOf i ∧
        (s.close client).rooms i = s.rooms i := by
      intro i
      by_cases hi : i = client
      · subst hi
        rw [userOf_of_data hd', userOf_of_data hd, rooms_of_data hd', rooms_of_data hd]
        exact ⟨rfl, rfl⟩
      · simp [userOf, rooms, close, setSocket, hi]
    have htallied : (s.close client).Tallied :=
      h.tallied.congr (fun i => (hsame i).1) (fun i => (hsame i).2) fun room n hn => hn
    refine h.update (disconnect_socket hd hc) rfl List.nodup_nil (fun _ => rfl) ?_
    rw [disconnect_eq hd hc]
    exact htallied.leaveRooms hd' (rooms_of_data hd ▸ h.distinct client) fun room hroom => hroom
  · rw [Gateway.disconnect, if_neg hc]
    exact h

omit [DecidableEq ι] in
theorem Counted.onCursor (h : s.Counted) (client : ι) (projectId : JsString)
    (issueId : Option JsString) : (s.onCursor client projectId issueId).Counted := by
  have hsocket := onCursor_socket s client projectId issueId
  have hrooms : ∀ i, (s.onCursor client projectId issueId).rooms i = s.rooms i := fun i => by
    rw [rooms, hsocket, rooms]
  refine ⟨hsocket ▸ h.attached, fun i => hrooms i ▸ h.distinct i, fun i hc => ?_,
    h.tallied.congr (fun i => by rw [userOf, hsocket, userOf]) hrooms
      (s.onCursor_presence client projectId issueId)⟩
  rw [hsocket] at hc
  exact (hrooms i).trans (h.closed i hc)

theorem Counted.handle (h : s.Counted) (e : NodeEvent ι) : (s.handle e).Counted := by
  cases e with
  | leave client projectId => exact h.onLeave client projectId
  | cursor client projectId issueId => exact h.onCursor client projectId issueId
  | disconnect client => exact h.disconnect client
  | database db => exact ⟨h.attached, h.distinct, h.closed, h.tallied⟩

theorem Counted.enter (h : s.Counted) (hc : (s.socket client).connected = true)
    {projectId organizationId : JsString} (seen : Db)
    (hroom : projectRoom organizationId projectId ∉ s.rooms client) :
    (s.enter client projectId organizationId seen).Counted := by
  obtain ⟨data, hd⟩ := h.attached client
  rw [rooms_of_data hd] at hroom
  have hnodup : data.rooms.Nodup := rooms_of_data hd ▸ h.distinct client
  refine h.update (enter_socket projectId organizationId seen hd) rfl ?_ (fun hclosed => ?_)
    (h.tallied.enter hd seen hroom)
  · simp only [if_neg hroom]
    exact hnodup.append (List.nodup_singleton _) (List.disjoint_singleton.2 hroom)
  · exact absurd (hc.symm.trans hclosed) nofun

/-- **A second `project:join` of a room is counted a second time.** -/
theorem Counted.rejoin (h : s.Counted) {projectId organizationId : JsString} (seen : Db)
    (hroom : projectRoom organizationId projectId ∈ s.rooms client) :
    ¬(s.enter client projectId organizationId seen).PresenceExact := by
  obtain ⟨data, hd⟩ := h.attached client
  rw [rooms_of_data hd] at hroom
  have hsocket := enter_socket projectId organizationId seen hd
  generalize hs' : s.enter client projectId organizationId seen = s' at hsocket ⊢
  have hsame : ∀ i, (s'.socket i).connected = (s.socket i).connected ∧
      s'.userOf i = s.userOf i ∧ s'.rooms i = s.rooms i := by
    intro i
    by_cases hi : i = client
    · subst hi
      simp [userOf, rooms, hsocket, SocketState.inside, hd, hroom]
    · simp [userOf, rooms, hsocket, hi]
  have hpresent : s'.present (projectRoom organizationId projectId) data.userId =
      s.holders (projectRoom organizationId projectId) data.userId := by
    rw [← h.present_eq]
    refine Finset.filter_congr fun i _ => ?_
    rw [(hsame i).1, (hsame i).2.1, (hsame i).2.2]
  have hcount : s'.sockets (projectRoom organizationId projectId) data.userId =
      ((s.holders (projectRoom organizationId projectId) data.userId).card + 1 : ℕ) := by
    have hmore : ∀ e : PresenceEntry, e.more.userId = e.userId := fun _ => rfl
    have hexact := (h.tallied (projectRoom organizationId projectId)).acquire ⟨data.me, 1⟩ rfl
      hmore fun _ => rfl
    rw [sockets, ← hs', enter_presence projectId organizationId seen hd, Function.update_self,
      hexact.find?_count]
    exact congrArg Nat.cast (Function.update_self ..)
  intro hexact
  have heq := (hexact (projectRoom organizationId projectId) data.userId).1
  rw [hpresent, hcount] at heq
  omega

end Events

end Gateway

/-! ### Runs -/

/-- An event that is handled to its end before the next one. -/
inductive RoomEvent (ι : Type*) where
  | join (client : ι) (projectId : JsString)
  | event (e : NodeEvent ι)

/-- The socket a message comes from. -/
def RoomEvent.sender {ι : Type*} : RoomEvent ι → Option ι
  | .join client _ => some client
  | .event e => e.sender

/-- Every `handleConnection` is through, and nobody has joined a room. -/
structure Opened {ι : Type*} (s : Gateway ι) : Prop where
  sockets : ∀ i, ∃ data : SocketData, s.socket i = ⟨true, some data, []⟩ ∧ data.rooms = []
  presence : ∀ room, s.presence room = []

section Runs

variable {ι : Type*} [DecidableEq ι]

def Gateway.process (s : Gateway ι) : RoomEvent ι → Gateway ι
  | .join client projectId => s.onJoin client projectId
  | .event e => s.handle e

/-- Messages come from connected sockets. -/
def Gateway.Sends (s : Gateway ι) (e : RoomEvent ι) : Prop :=
  ∀ client ∈ e.sender, (s.socket client).connected = true

instance (s : Gateway ι) (e : RoomEvent ι) : Decidable (s.Sends e) :=
  inferInstanceAs (Decidable (∀ _ ∈ _, _ = _))

/-- One event after the other. -/
abbrev EventStep : Gateway ι → RoomEvent ι → Gateway ι → Prop :=
  Steps Gateway.Sends Gateway.process

/-- The condition on an event: no socket joins a room it has. -/
def Gateway.FreshJoin (s : Gateway ι) : RoomEvent ι → Prop
  | .join client projectId =>
      ∀ organizationId ∈ s.db.joinLookup projectId (s.userOf client),
        projectRoom organizationId projectId ∉ s.rooms client
  | .event _ => True

instance (s : Gateway ι) : ∀ e : RoomEvent ι, Decidable (s.FreshJoin e)
  | .join _ _ => inferInstanceAs (Decidable (∀ _ ∈ _, _ ∉ _))
  | .event _ => isTrue trivial

variable [Fintype ι]

omit [DecidableEq ι] in
theorem Opened.counted {s : Gateway ι} (h : Opened s) : s.Counted := by
  have hrooms : ∀ i, s.rooms i = [] := by
    intro i
    obtain ⟨data, hs, hnil⟩ := h.sockets i
    rw [Gateway.rooms, hs]
    exact hnil
  refine ⟨fun i => ?_, fun i => ?_, fun i _ => hrooms i, fun room => ?_⟩
  · obtain ⟨data, hs, _⟩ := h.sockets i
    exact ⟨data, by rw [hs]⟩
  · rw [hrooms i]
    exact List.nodup_nil
  · have hnone : (fun userId => (s.holders room userId).card) = fun _ => 0 := by
      funext userId
      simp [Gateway.holders, hrooms]
    rw [h.presence room, hnone]
    exact exact_nil

theorem Gateway.Counted.process {s : Gateway ι} (h : s.Counted) {e : RoomEvent ι}
    (hsends : s.Sends e) (hfresh : s.FreshJoin e) : (s.process e).Counted := by
  cases e with
  | event e => exact h.handle e
  | join client projectId =>
      simp only [Gateway.process, Gateway.onJoin]
      cases horg : s.db.joinLookup projectId ((s.socket client).data.map SocketData.userId) with
      | none => exact h
      | some organizationId => exact h.enter (hsends client rfl) s.db (hfresh organizationId horg)

/-- **The presence is exact as long as nobody joins a room twice.**  In every run whose joins are
of rooms the socket does not have, the counts are right in every state. -/
theorem presence_exact_of_fresh {s₀ s : Gateway ι} {es : List (RoomEvent ι)} (hopened : Opened s₀)
    (hrun : Run (Guarded EventStep Gateway.FreshJoin) s₀ es s) : s.PresenceExact := by
  have hcounted : s.Counted := hrun.invariant (P := Gateway.Counted) (fun s e s' hs hstep => by
    obtain ⟨⟨hsends, rfl⟩, hfresh⟩ := hstep
    exact hs.process hsends hfresh) hopened.counted
  exact hcounted.exact

end Runs

/-! ### Two tabs of one user -/

namespace Presence.Samples

/-- Two sockets of the member of the demo project. -/
def opened : Gateway Bool where
  db := RoomAccess.Samples.db
  socket _ := ⟨true, some ⟨Demo.userId.val, js "Ann", none, []⟩, []⟩
  presence _ := []
  emitted := []
  joins := []

theorem opened_ok : Opened opened := ⟨fun _ => ⟨_, rfl, rfl⟩, fun _ => rfl⟩

def room : JsString := projectRoom Demo.orgId.val Demo.projectId.val

abbrev enters (tab : Bool) : RoomEvent Bool := .join tab Demo.projectId.val

/-- Both tabs join, one of them points at a card and closes. -/
def visit : List (RoomEvent Bool) :=
  [enters false, enters true, .event (.cursor true Demo.projectId.val (some (js "c1"))),
    .event (.disconnect true)]

end Presence.Samples

open Presence.Samples

theorem presence_exact_visit :
    (visit.foldl Gateway.process opened).sockets room Demo.userId.val = 1 ∧
      (visit.foldl Gateway.process opened).PresenceExact :=
  ⟨by decide, presence_exact_of_fresh opened_ok
    (Along.guarded (by decide))⟩

/-- A tab that joins twice is counted twice. -/
theorem presence_counts_twice :
    Opened opened ∧
      Run EventStep opened [enters true, enters true]
        ([enters true, enters true].foldl Gateway.process opened) ∧
      ([enters true, enters true].foldl Gateway.process opened).sockets room Demo.userId.val = 2 ∧
      (([enters true, enters true].foldl Gateway.process opened).present room
        Demo.userId.val).card = 1 ∧
      ¬([enters true, enters true].foldl Gateway.process opened).PresenceExact := by
  refine ⟨opened_ok, Along.run (by decide), by decide, by decide, fun hexact => ?_⟩
  have heq := (hexact room Demo.userId.val).1
  exact absurd heq (by decide)

end PmSaas
