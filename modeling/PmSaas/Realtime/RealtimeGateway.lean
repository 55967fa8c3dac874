import PmSaas.Db.Schema
import PmSaas.Types.Realtime
import PmSaas.Types.Schemas
import PmSaas.Lib.Table
import PmSaas.Lib.Interleaving

/-!
# `realtime.gateway.ts`: sockets, rooms and presence of one API node

`handleConnection` and `onJoin` await in the middle, so each is a machine whose steps (`Task`) take
turns with those of every other event; `handleDisconnect` runs to its end at once.  A socket's
`client.data` is empty until `handleConnection` fills in all its fields together.

The rows an awaited query sees are those at the step that makes it.  `joins` is a ledger for the
proofs: it records each entry into a room together with the database its membership lookup saw.
-/

namespace PmSaas

open Table TransitionSystem

/-! ### State -/

/-- `SocketData`. -/
structure SocketData where
  userId : JsString
  name : JsString
  avatarUrl : Option JsString
  rooms : List JsString
  deriving DecidableEq, Repr

structure SocketState where
  connected : Bool
  /-- `client.data`. -/
  data : Option SocketData
  /-- The rooms the adapter has the socket in. -/
  joined : List JsString
  deriving DecidableEq, Repr

structure PresenceUser where
  userId : JsString
  name : JsString
  avatarUrl : Option JsString
  cursor : Option JsString
  deriving DecidableEq, Repr

/-- A user of a room's presence, with the number of sockets counted for it. -/
structure PresenceEntry where
  user : PresenceUser
  sockets : ℤ
  deriving DecidableEq, Repr

inductive PresenceEvent where
  | sync (users : List PresenceUser)
  | join (user : PresenceUser)
  | leave (userId : JsString)
  deriving DecidableEq, Repr

/-- Whom an event is sent to. -/
inductive Audience (ι : Type*) where
  | client (socket : ι)
  /-- `client.to(room)` -/
  | others (socket : ι) (room : JsString)
  | room (room : JsString)

/-- An entry of a socket into a project's room. -/
structure JoinRecord (ι : Type*) where
  client : ι
  projectId : JsString
  organizationId : JsString
  /-- `client.data.userId` at the entry. -/
  userId : Option JsString
  /-- The database the membership lookup saw. -/
  seen : Db

structure Gateway (ι : Type*) where
  db : Db
  socket : ι → SocketState
  presence : JsString → List PresenceEntry
  emitted : List (Audience ι × PresenceEvent)
  joins : List (JoinRecord ι)

/-- Where an event handler stands. -/
inductive Task (ι : Type*) where
  /-- `handleConnection`, with the token of the handshake. -/
  | connect (client : ι) (token : Option JsString)
  /-- The token is good; the user is to be looked up. -/
  | findUser (client : ι) (sub : JsString)
  /-- The user was looked up. -/
  | attach (client : ι) (user : Option User)
  /-- `onJoin`, about to build its query. -/
  | join (client : ι) (projectId : JsString)
  /-- The query is built, with the membership filter `userId`; `none` is `undefined`. -/
  | lookup (client : ι) (projectId : JsString) (userId : Option JsString)
  /-- The query found a project and a membership. -/
  | enterRoom (client : ι) (projectId : JsString) (userId : Option JsString)
      (organizationId : JsString) (seen : Db)
  | done

/-- The query of `onJoin`: the project's organization, if the filtered memberships are not empty.
A filter value `undefined` filters nothing. -/
def Db.joinLookup (projectId : JsString) (userId : Option JsString) (db : Db) : Option JsString :=
  (db.projects.find? (·.id == projectId)).bind fun project =>
    if db.memberships.any fun m =>
        m.organizationId == project.organizationId && userId.all (· == m.userId) then
      some project.organizationId
    else none

namespace Gateway

variable {ι : Type*} [DecidableEq ι]

def setSocket (s : Gateway ι) (client : ι) (state : SocketState) : Gateway ι :=
  { s with socket := Function.update s.socket client state }

def emit (s : Gateway ι) (audience : Audience ι) (event : PresenceEvent) : Gateway ι :=
  { s with emitted := s.emitted ++ [(audience, event)] }

def setPresence (s : Gateway ι) (room : JsString) (entries : List PresenceEntry) : Gateway ι :=
  { s with presence := Function.update s.presence room entries }

/-! ### Presence -/

def addPresence (s : Gateway ι) (room : JsString) (user : PresenceUser) : Gateway ι :=
  if (s.presence room).any (·.user.userId == user.userId) then
    s.setPresence room (updateWhere (·.user.userId == user.userId)
      (fun e => { e with sockets := e.sockets + 1 }) (s.presence room))
  else s.setPresence room (s.presence room ++ [⟨user, 1⟩])

/-- The user's count goes down, and with the last socket the user leaves. -/
def dropPresence (s : Gateway ι) (room userId : JsString) : Gateway ι :=
  match (s.presence room).find? (·.user.userId == userId) with
  | none => s
  | some entry =>
      if entry.sockets - 1 ≤ 0 then
        (s.setPresence room (deleteWhere (·.user.userId == userId) (s.presence room))).emit
          (.room room) (.leave userId)
      else s.setPresence room (updateWhere (·.user.userId == userId)
        (fun e => { e with sockets := e.sockets - 1 }) (s.presence room))

/-- `leaveRoom`, for a socket with `data`. -/
def leaveRoom (client : ι) (s : Gateway ι) (room : JsString) : Gateway ι :=
  match (s.socket client).data with
  | none => s
  | some data =>
      (s.setSocket client { s.socket client with
        joined := (s.socket client).joined.filter (· != room)
        data := some { data with rooms := data.rooms.filter (· != room) } }).dropPresence
          room data.userId

/-- `handleDisconnect`. -/
def handleDisconnect (s : Gateway ι) (client : ι) : Gateway ι :=
  match (s.socket client).data with
  | none => s
  | some data => data.rooms.foldl (leaveRoom client) s

/-- The connection closes: Socket.io takes the socket out of its rooms and calls
`handleDisconnect`. -/
def disconnect (s : Gateway ι) (client : ι) : Gateway ι :=
  if (s.socket client).connected then
    (s.setSocket client { s.socket client with connected := false, joined := [] }).handleDisconnect
      client
  else s

/-! ### The handlers -/

/-- `client.join(room)`, a no-op on a closed socket. -/
def joinRoom (s : Gateway ι) (client : ι) (projectId organizationId : JsString) (seen : Db) :
    Gateway ι :=
  if (s.socket client).connected then
    { s.setSocket client { s.socket client with
        joined := (s.socket client).joined ++ [projectRoom organizationId projectId] } with
      joins := s.joins ++
        [⟨client, projectId, organizationId, (s.socket client).data.map SocketData.userId, seen⟩] }
  else s

/-- `onLeave`.  Without `client.data.rooms` the loop throws. -/
def onLeave (s : Gateway ι) (client : ι) (projectId : JsString) : Gateway ι :=
  match (s.socket client).data with
  | none => s
  | some data => (data.rooms.filter (isRoomOf projectId)).foldl (leaveRoom client) s

/-- The turn of the loop of `onCursor` for a room of the project. -/
def moveCursor (client : ι) (userId : JsString) (issueId : Option JsString) (s : Gateway ι)
    (room : JsString) : Gateway ι :=
  match (s.presence room).find? (·.user.userId == userId) with
  | none => s
  | some entry =>
      (s.setPresence room (updateWhere (·.user.userId == userId)
        (fun e => { e with user := { e.user with cursor := truthy issueId } })
          (s.presence room))).emit
        (.others client room) (.join { entry.user with cursor := truthy issueId })

/-- `onCursor`. -/
def onCursor (s : Gateway ι) (client : ι) (projectId : JsString) (issueId : Option JsString) :
    Gateway ι :=
  match (s.socket client).data with
  | none => s
  | some data =>
      (data.rooms.filter (isRoomOf projectId)).foldl (moveCursor client data.userId issueId) s

/-- What `onJoin` does after its lookup.  Without `client.data.rooms` the line after
`client.join(room)` throws. -/
def enter (s : Gateway ι) (client : ι) (projectId organizationId : JsString) (seen : Db) :
    Gateway ι :=
  let room := projectRoom organizationId projectId
  let s := s.joinRoom client projectId organizationId seen
  match (s.socket client).data with
  | none => s
  | some data =>
      let me : PresenceUser := ⟨data.userId, data.name, data.avatarUrl, none⟩
      let s := (s.setSocket client { s.socket client with
        data := some { data with
          rooms := if room ∈ data.rooms then data.rooms else data.rooms ++ [room] } }).addPresence
            room me
      (s.emit (.client client) (.sync ((s.presence room).map PresenceEntry.user))).emit
        (.others client room) (.join me)

/-- `onJoin` from beginning to end, with nothing in between. -/
def onJoin (s : Gateway ι) (client : ι) (projectId : JsString) : Gateway ι :=
  match s.db.joinLookup projectId ((s.socket client).data.map SocketData.userId) with
  | none => s
  | some organizationId => s.enter client projectId organizationId s.db

/-- The next step of a handler.  `verify` is `jwt.verifyAsync`, which yields the token's `sub`. -/
def step (verify : JsString → Option JsString) : Task ι → Gateway ι → Task ι × Gateway ι
  | .connect client token, s =>
      match (truthy token).bind verify with
      | none => (.done, s.disconnect client)
      | some sub => (.findUser client sub, s)
  | .findUser client sub, s => (.attach client (s.db.users.find? (·.id == sub)), s)
  | .attach client none, s => (.done, s.disconnect client)
  | .attach client (some user), s =>
      (.done, s.setSocket client { s.socket client with
        data := some ⟨user.id, user.name, user.avatarUrl, []⟩ })
  | .join client projectId, s =>
      (.lookup client projectId ((s.socket client).data.map SocketData.userId), s)
  | .lookup client projectId userId, s =>
      match s.db.joinLookup projectId userId with
      | none => (.done, s)
      | some organizationId => (.enterRoom client projectId userId organizationId s.db, s)
  | .enterRoom client projectId _ organizationId seen, s =>
      (.done, s.enter client projectId organizationId seen)
  | .done, s => (.done, s)

/-- A `project:join` whose handler is not interrupted. -/
theorem onJoin_eq_steps (verify : JsString → Option JsString) (s : Gateway ι) (client : ι)
    (projectId : JsString) :
    let s₁ := step verify (.join client projectId) s
    let s₂ := step verify s₁.1 s₁.2
    step verify s₂.1 s₂.2 = (.done, s.onJoin client projectId) := by
  simp only [step, onJoin]
  cases s.db.joinLookup projectId ((s.socket client).data.map SocketData.userId) <;> rfl

end Gateway

/-- What happens at once: a message whose handler does not await, a closed connection, a change of
the database. -/
inductive NodeEvent (ι : Type*) where
  | leave (client : ι) (projectId : JsString)
  | cursor (client : ι) (projectId : JsString) (issueId : Option JsString)
  | disconnect (client : ι)
  | database (db : Db)

/-- The socket a message comes from, which is connected then. -/
def NodeEvent.sender {ι : Type*} : NodeEvent ι → Option ι
  | .leave client _ => some client
  | .cursor client _ _ => some client
  | _ => none

def Gateway.handle {ι : Type*} [DecidableEq ι] (s : Gateway ι) : NodeEvent ι → Gateway ι
  | .leave client projectId => s.onLeave client projectId
  | .cursor client projectId issueId => s.onCursor client projectId issueId
  | .disconnect client => s.disconnect client
  | .database db => { s with db := db }

/-- What can happen next: a handler goes on, the database changes, a client goes away. -/
inductive GatewayAction (τ ι : Type*) where
  | run (task : τ)
  | database (db : Db)
  | disconnect (client : ι)

/-- One step of the node. -/
def GatewayStep {τ ι : Type*} [DecidableEq τ] [DecidableEq ι] (verify : JsString → Option JsString)
    (s : Pool τ (Task ι) (Gateway ι)) (a : GatewayAction τ ι) (s' : Pool τ (Task ι) (Gateway ι)) :
    Prop :=
  match a with
  | .run task => s' = s.advance (Gateway.step verify) task
  | .database db => s' = { s with store := { s.store with db := db } }
  | .disconnect client => s' = { s with store := s.store.disconnect client }

end PmSaas
