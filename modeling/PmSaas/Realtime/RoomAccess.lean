import PmSaas.Common.Service
import PmSaas.Realtime.RealtimeGateway

/-!
# Who gets into a project's room

`onJoin` filters the memberships by `client.data.userId`, which is `undefined` until
`handleConnection` is through, and an `undefined` filter matches every member.  A socket that asks
early is let in without any authentication (`unauthenticated_join`).

`joins_authorized_of_filtered`: in every run in which no unfiltered lookup finds anything, a
socket enters a room only as an authenticated user who was a member at the lookup.
-/

namespace PmSaas

open Table TransitionSystem

abbrev GatewayPool (τ ι : Type*) := Pool τ (Task ι) (Gateway ι)

/-- `client.data.userId`. -/
def Gateway.userOf {ι : Type*} (s : Gateway ι) (client : ι) : Option JsString :=
  (s.socket client).data.map SocketData.userId

/-- The socket is authenticated, and its user was a member of the project's organization in the
database of the lookup. -/
def JoinRecord.Authorized {ι : Type*} (r : JoinRecord ι) : Prop :=
  ∃ u, r.userId = some u ∧
    ∃ m ∈ r.seen.memberships, m.userId = u ∧ m.organizationId = r.organizationId

/-- The socket whose `handleConnection` this is. -/
def Task.connecting {ι : Type*} : Task ι → Option ι
  | .connect client _ => some client
  | .findUser client _ => some client
  | .attach client _ => some client
  | _ => none

/-- The project of a lookup that filters by no user. -/
def Task.unfiltered {ι : Type*} : Task ι → Option JsString
  | .lookup _ projectId none => some projectId
  | _ => none

section Access

variable {τ ι : Type*} [DecidableEq τ] [DecidableEq ι] {verify : JsString → Option JsString}

/-- Every handler still to begin, at most one `handleConnection` for each socket. -/
structure GatewayInitial (s : GatewayPool τ ι) : Prop where
  joins : s.store.joins = []
  sockets : ∀ i, (s.store.socket i).data = none ∧ (s.store.socket i).joined = []
  tasks : ∀ t, (∃ i token, s.thread t = .connect i token) ∨
    ∃ i projectId, s.thread t = .join i projectId
  once : ∀ t t' i, (s.thread t).connecting = some i → (s.thread t').connecting = some i → t = t'

/-- The condition on a step: a lookup without a user id finds nothing. -/
def Filtered (s : GatewayPool τ ι) : GatewayAction τ ι → Prop
  | .run t => ∀ projectId ∈ (s.thread t).unfiltered, s.store.db.joinLookup projectId none = none
  | _ => True

instance (s : GatewayPool τ ι) (t : τ) : Decidable (Filtered s (.run t)) :=
  inferInstanceAs (Decidable (∀ _ ∈ _, _ = _))

/-! ### Operations that authenticate nobody and let nobody in -/

structure Keeps (s s' : Gateway ι) : Prop where
  users : ∀ i, s'.userOf i = s.userOf i
  joins : s'.joins = s.joins
  joined : ∀ i, ∀ room ∈ (s'.socket i).joined, room ∈ (s.socket i).joined

namespace Keeps

variable {s s' s'' : Gateway ι}

omit [DecidableEq ι] in
theorem of_eq (hs : s'.socket = s.socket) (hj : s'.joins = s.joins) : Keeps s s' :=
  ⟨fun i => by rw [Gateway.userOf, hs, Gateway.userOf], hj, fun i room h => hs ▸ h⟩

omit [DecidableEq ι] in
theorem refl (s : Gateway ι) : Keeps s s := of_eq rfl rfl

omit [DecidableEq ι] in
theorem trans (h : Keeps s s') (h' : Keeps s' s'') : Keeps s s'' :=
  ⟨fun i => (h'.users i).trans (h.users i), h'.joins.trans h.joins,
    fun i room hr => h.joined i room (h'.joined i room hr)⟩

theorem setSocket (s : Gateway ι) (client : ι) {state : SocketState}
    (hdata : state.data.map SocketData.userId = s.userOf client)
    (hjoined : ∀ room ∈ state.joined, room ∈ (s.socket client).joined) :
    Keeps s (s.setSocket client state) := by
  refine ⟨fun i => ?_, rfl, fun i room hr => ?_⟩
  · by_cases hi : i = client
    · subst hi
      simpa [Gateway.setSocket, Gateway.userOf] using hdata
    · simp [Gateway.setSocket, Gateway.userOf, hi]
  · by_cases hi : i = client
    · subst hi
      simp only [Gateway.setSocket, Function.update_self] at hr
      exact hjoined room hr
    · simpa [Gateway.setSocket, hi] using hr

omit [DecidableEq ι] in
theorem addPresence (s : Gateway ι) (room : JsString) (user : PresenceUser) :
    Keeps s (s.addPresence room user) := by
  unfold Gateway.addPresence
  split <;> exact of_eq rfl rfl

omit [DecidableEq ι] in
theorem dropPresence (s : Gateway ι) (room userId : JsString) :
    Keeps s (s.dropPresence room userId) := by
  unfold Gateway.dropPresence
  split
  · exact refl s
  · split <;> exact of_eq rfl rfl

theorem leaveRoom (client : ι) (s : Gateway ι) (room : JsString) :
    Keeps s (s.leaveRoom client room) := by
  unfold Gateway.leaveRoom
  cases hd : (s.socket client).data with
  | none => exact refl s
  | some data =>
      refine (setSocket s client ?_ ?_).trans (dropPresence _ room data.userId)
      · simp [Gateway.userOf, hd]
      · intro room' hr
        exact List.mem_of_mem_filter hr

theorem foldl_leaveRoom (client : ι) (rooms : List JsString) (s : Gateway ι) :
    Keeps s (rooms.foldl (Gateway.leaveRoom client) s) := by
  induction rooms generalizing s with
  | nil => exact refl s
  | cons room rooms ih => exact (leaveRoom client s room).trans (ih _)

theorem disconnect (s : Gateway ι) (client : ι) : Keeps s (s.disconnect client) := by
  unfold Gateway.disconnect Gateway.handleDisconnect
  split
  · have hclose : Keeps s (s.setSocket client
        { s.socket client with connected := false, joined := [] }) :=
      setSocket s client rfl (by simp)
    refine hclose.trans ?_
    split
    · exact refl _
    · exact foldl_leaveRoom client _ _
  · exact refl s

end Keeps

/-- After the entry itself, `onJoin` only counts and announces. -/
theorem keeps_enter (s : Gateway ι) (client : ι) (projectId organizationId : JsString)
    (seen : Db) :
    Keeps (s.joinRoom client projectId organizationId seen)
      (s.enter client projectId organizationId seen) := by
  unfold Gateway.enter
  simp only
  generalize s.joinRoom client projectId organizationId seen = s'
  cases hd : (s'.socket client).data with
  | none => exact .refl s'
  | some data =>
      have hset : Keeps s' (s'.setSocket client { s'.socket client with
          data := some { data with
            rooms := if projectRoom organizationId projectId ∈ data.rooms then data.rooms
              else data.rooms ++ [projectRoom organizationId projectId] } }) :=
        .setSocket s' client (by simp [Gateway.userOf, hd]) fun room hr => hr
      exact (hset.trans (.addPresence ..)).trans (.of_eq rfl rfl)

/-! ### The invariant -/

structure Access (s : GatewayPool τ ι) : Prop where
  once : ∀ t t' i, (s.thread t).connecting = some i → (s.thread t').connecting = some i → t = t'
  pending : ∀ t i, (s.thread t).connecting = some i → s.store.userOf i = none
  filter : ∀ t i projectId u, s.thread t = .lookup i projectId (some u) →
    s.store.userOf i = some u
  found : ∀ t i projectId userId organizationId seen,
    s.thread t = .enterRoom i projectId userId organizationId seen →
    ∃ u, s.store.userOf i = some u ∧
      ∃ m ∈ seen.memberships, m.userId = u ∧ m.organizationId = organizationId
  records : ∀ r ∈ s.store.joins, r.Authorized
  rooms : ∀ i, ∀ room ∈ (s.store.socket i).joined,
    ∃ r ∈ s.store.joins, r.client = i ∧ projectRoom r.organizationId r.projectId = room

namespace Access

variable {s : GatewayPool τ ι}

omit [DecidableEq τ] [DecidableEq ι] in
theorem store (h : Access s) {store' : Gateway ι} (hkeep : Keeps s.store store') :
    Access { s with store := store' } := by
  refine ⟨h.once, ?_, ?_, ?_, ?_, ?_⟩
  · intro t i hi
    exact (hkeep.users i).trans (h.pending t i hi)
  · intro t i projectId u ht
    exact (hkeep.users i).trans (h.filter t i projectId u ht)
  · intro t i projectId userId organizationId seen ht
    obtain ⟨u, hu, hm⟩ := h.found t i projectId userId organizationId seen ht
    exact ⟨u, (hkeep.users i).trans hu, hm⟩
  · intro r hr
    exact h.records r (hkeep.joins ▸ hr)
  · intro i room hr
    obtain ⟨r, hmem, hrec⟩ := h.rooms i room (hkeep.joined i room hr)
    exact ⟨r, hkeep.joins.symm ▸ hmem, hrec⟩

omit [DecidableEq ι] in
/-- A handler goes on to `task`. -/
theorem goOn (h : Access s) (t : τ) {task : Task ι}
    (hconnecting : ∀ i, task.connecting = some i → (s.thread t).connecting = some i)
    (hfilter : ∀ i projectId u, task = .lookup i projectId (some u) → s.store.userOf i = some u)
    (hfound : ∀ i projectId userId organizationId seen,
      task = .enterRoom i projectId userId organizationId seen →
      ∃ u, s.store.userOf i = some u ∧
        ∃ m ∈ seen.memberships, m.userId = u ∧ m.organizationId = organizationId) :
    Access { s with thread := Function.update s.thread t task } := by
  have hback : ∀ t' i, (Function.update s.thread t task t').connecting = some i →
      (s.thread t').connecting = some i := by
    refine (Function.forall_update_iff s.thread fun t' task => ∀ i, task.connecting = some i →
      (s.thread t').connecting = some i).2 ⟨hconnecting, fun t' _ i hi => hi⟩
  refine ⟨?_, fun t' i hi => h.pending t' i (hback t' i hi), ?_, ?_, h.records, h.rooms⟩
  · intro t₁ t₂ i h₁ h₂
    exact h.once t₁ t₂ i (hback t₁ i h₁) (hback t₂ i h₂)
  · exact (Function.forall_update_iff s.thread fun _ task => ∀ i projectId u,
      task = .lookup i projectId (some u) → s.store.userOf i = some u).2
      ⟨hfilter, fun t' _ => h.filter t'⟩
  · exact (Function.forall_update_iff s.thread fun _ task =>
      ∀ i projectId userId organizationId seen,
      task = .enterRoom i projectId userId organizationId seen →
      ∃ u, s.store.userOf i = some u ∧
        ∃ m ∈ seen.memberships, m.userId = u ∧ m.organizationId = organizationId).2
      ⟨hfound, fun t' _ => h.found t'⟩

omit [DecidableEq ι] in
theorem finish (h : Access s) (t : τ) :
    Access { s with thread := Function.update s.thread t .done } :=
  h.goOn t (fun i hi => by cases hi) (fun i p u hl => by cases hl)
    (fun i p u o d ha => by cases ha)

/-- `handleConnection` fills in `client.data` of its socket. -/
theorem attach (h : Access s) {t : τ} {client : ι} {found : Option User}
    (ht : s.thread t = .attach client found) (user : User) :
    Access { s with
      thread := Function.update s.thread t .done
      store := s.store.setSocket client { s.store.socket client with
        data := some ⟨user.id, user.name, user.avatarUrl, []⟩ } } := by
  have hown : (s.thread t).connecting = some client := by
    rw [ht]
    rfl
  have hnone := h.pending t client hown
  have hother : ∀ i, i ≠ client → (s.store.setSocket client { s.store.socket client with
      data := some ⟨user.id, user.name, user.avatarUrl, []⟩ }).userOf i = s.store.userOf i := by
    intro i hi
    simp [Gateway.userOf, Gateway.setSocket, hi]
  have hf := h.finish t
  refine ⟨hf.once, ?_, ?_, ?_, h.records, ?_⟩
  · intro t' i hi
    have hne : i ≠ client := by
      rintro rfl
      by_cases htt : t' = t
      · subst htt
        simp only [Function.update_self] at hi
        cases hi
      · simp only [Function.update_of_ne htt] at hi
        exact htt (h.once t' t i hi hown)
    exact (hother i hne).trans (hf.pending t' i hi)
  · intro t' i projectId u hl
    have hu := hf.filter t' i projectId u hl
    refine (hother i ?_).trans hu
    rintro rfl
    simp [hnone] at hu
  · intro t' i projectId userId organizationId seen ha
    obtain ⟨u, hu, hm⟩ := hf.found t' i projectId userId organizationId seen ha
    refine ⟨u, (hother i ?_).trans hu, hm⟩
    rintro rfl
    simp [hnone] at hu
  · intro i room hr
    refine h.rooms i room ?_
    by_cases hi : i = client
    · subst hi
      simpa [Gateway.setSocket] using hr
    · simpa [Gateway.setSocket, hi] using hr

omit [DecidableEq τ] in
/-- An authenticated member enters the room. -/
theorem joinRoom (h : Access s) {client : ι} {organizationId : JsString} {seen : Db}
    (hmember : ∃ u, s.store.userOf client = some u ∧
      ∃ m ∈ seen.memberships, m.userId = u ∧ m.organizationId = organizationId)
    (projectId : JsString) :
    Access { s with store := s.store.joinRoom client projectId organizationId seen } := by
  unfold Gateway.joinRoom
  split
  · have husers : ∀ i, (s.store.setSocket client { s.store.socket client with
        joined := (s.store.socket client).joined ++
          [projectRoom organizationId projectId] }).userOf i = s.store.userOf i := by
      intro i
      by_cases hi : i = client
      · subst hi
        simp [Gateway.userOf, Gateway.setSocket]
      · simp [Gateway.userOf, Gateway.setSocket, hi]
    refine ⟨h.once, ?_, ?_, ?_, ?_, ?_⟩
    · exact fun t i hi => (husers i).trans (h.pending t i hi)
    · exact fun t i projectId u ht => (husers i).trans (h.filter t i projectId u ht)
    · intro t i projectId' userId organizationId' seen' ht
      obtain ⟨u, hu, hm⟩ := h.found t i projectId' userId organizationId' seen' ht
      exact ⟨u, (husers i).trans hu, hm⟩
    · intro r hr
      rcases List.mem_append.1 hr with hr | hr
      · exact h.records r hr
      · rw [List.mem_singleton.1 hr]
        exact hmember
    · intro i room hr
      by_cases hi : i = client
      · subst hi
        simp only [Gateway.setSocket, Function.update_self] at hr
        rcases List.mem_append.1 hr with hr | hr
        · obtain ⟨r, hmem, hrec⟩ := h.rooms i room hr
          exact ⟨r, List.mem_append_left _ hmem, hrec⟩
        · rw [List.mem_singleton.1 hr]
          exact ⟨_, List.mem_append_right _ (List.mem_singleton_self _), rfl, rfl⟩
      · simp only [Gateway.setSocket, Function.update_of_ne hi] at hr
        obtain ⟨r, hmem, hrec⟩ := h.rooms i room hr
        exact ⟨r, List.mem_append_left _ hmem, hrec⟩
  · exact h

end Access

/-- A filtered lookup that finds something finds the user's own membership. -/
theorem Db.joinLookup_some {db : Db} {projectId u organizationId : JsString}
    (h : db.joinLookup projectId (some u) = some organizationId) :
    ∃ m ∈ db.memberships, m.userId = u ∧ m.organizationId = organizationId := by
  obtain ⟨project, _, hp⟩ := Option.bind_eq_some_iff.1 h
  split at hp
  · rename_i hany
    cases hp
    obtain ⟨m, hm, hmatch⟩ := List.any_eq_true.1 hany
    simp only [Option.all_some, Bool.and_eq_true, beq_iff_eq] at hmatch
    exact ⟨m, hm, hmatch.2.symm, hmatch.1⟩
  · cases hp

/-! ### Runs -/

theorem Access.step {s s' : GatewayPool τ ι} {a : GatewayAction τ ι} (h : Access s)
    (hstep : Guarded (GatewayStep verify) Filtered s a s') : Access s' := by
  obtain ⟨hs, hfiltered⟩ := hstep
  cases a with
  | database db =>
      rw [show s' = _ from hs]
      exact h.store (.of_eq rfl rfl)
  | disconnect client =>
      rw [show s' = _ from hs]
      exact h.store (.disconnect ..)
  | run t =>
      rw [show s' = s.advance (Gateway.step verify) t from hs]
      unfold Pool.advance
      cases ht : s.thread t with
      | connect client token =>
          rw [Gateway.step]
          cases (truthy token).bind verify with
          | none => exact (h.store (.disconnect s.store client)).finish t
          | some sub =>
              refine h.goOn t (fun i hi => ?_) (fun i p u hl => by cases hl)
                (fun i p u o d ha => by cases ha)
              rw [ht]
              exact hi
      | findUser client sub =>
          refine h.goOn t (fun i hi => ?_) (fun i p u hl => by cases hl)
            (fun i p u o d ha => by cases ha)
          rw [ht]
          exact hi
      | attach client found =>
          cases found with
          | none => exact (h.store (.disconnect s.store client)).finish t
          | some user => exact h.attach ht user
      | join client projectId =>
          refine h.goOn t (fun i hi => by cases hi) (fun i p u hl => ?_)
            (fun i p u o d ha => by cases ha)
          obtain ⟨rfl, _, hu⟩ := Task.lookup.inj hl
          exact hu
      | lookup client projectId userId =>
          rw [Gateway.step]
          cases hfound : s.store.db.joinLookup projectId userId with
          | none => exact h.finish t
          | some organizationId =>
              refine h.goOn t (fun i hi => by cases hi) (fun i p u hl => by cases hl) ?_
              intro i p u o d ha
              obtain ⟨rfl, rfl, rfl, rfl, rfl⟩ := Task.enterRoom.inj ha
              cases userId with
              | none =>
                  rw [hfiltered projectId (ht ▸ rfl)] at hfound
                  cases hfound
              | some u =>
                  exact ⟨u, h.filter t client projectId u ht, Db.joinLookup_some hfound⟩
      | enterRoom client projectId userId organizationId seen =>
          have hmember := h.found t client projectId userId organizationId seen ht
          exact ((h.joinRoom hmember projectId).store (keeps_enter ..)).finish t
      | done => exact h.finish t

omit [DecidableEq τ] [DecidableEq ι] in
theorem GatewayInitial.access {s : GatewayPool τ ι} (h : GatewayInitial s) : Access s := by
  refine ⟨h.once, ?_, ?_, ?_, ?_, ?_⟩
  · intro t i _
    simp [Gateway.userOf, (h.sockets i).1]
  · intro t i projectId u ht
    rcases h.tasks t with ⟨_, _, hc⟩ | ⟨_, _, hj⟩
    · rw [hc] at ht
      cases ht
    · rw [hj] at ht
      cases ht
  · intro t i projectId userId organizationId seen ht
    rcases h.tasks t with ⟨_, _, hc⟩ | ⟨_, _, hj⟩
    · rw [hc] at ht
      cases ht
    · rw [hj] at ht
      cases ht
  · intro r hr
    rw [h.joins] at hr
    cases hr
  · intro i room hr
    rw [(h.sockets i).2] at hr
    cases hr

/-- **Rooms are for members as long as no unfiltered lookup finds anything.**  In every run under
that condition each entry into a room is authorized, and a socket is only in rooms it entered. -/
theorem joins_authorized_of_filtered {s₀ s : GatewayPool τ ι} {actions : List (GatewayAction τ ι)}
    (h₀ : GatewayInitial s₀) (hrun : Run (Guarded (GatewayStep verify) Filtered) s₀ actions s) :
    (∀ r ∈ s.store.joins, r.Authorized) ∧
    ∀ i, ∀ room ∈ (s.store.socket i).joined,
      ∃ r ∈ s.store.joins, r.client = i ∧ projectRoom r.organizationId r.projectId = room := by
  have h : Access s :=
    hrun.invariant (P := Access) (fun _ _ _ h hstep => h.step hstep) h₀.access
  exact ⟨h.records, h.rooms⟩

end Access

/-! ### One socket, one join message -/

namespace RoomAccess.Samples

/-- The demo project with one member. -/
def db : Db :=
  { Demo.world.db with
    memberships := [⟨js "cm", Demo.userId.val, Demo.orgId.val, .OWNER, 0⟩] }

/-- `true` is the socket's `handleConnection`, `false` its `project:join`. -/
def start (token : JsString) : GatewayPool Bool Unit where
  store := ⟨db, fun _ => ⟨true, none, []⟩, fun _ => [], [], []⟩
  thread t := if t then .connect () (some token) else .join () Demo.projectId.val

/-- The only good token is the member's. -/
def verify (token : JsString) : Option JsString :=
  if token = js "good" then some Demo.userId.val else none

theorem start_initial (token : JsString) : GatewayInitial (start token) := by
  refine ⟨rfl, fun _ => ⟨rfl, rfl⟩, fun t => ?_, fun t t' i h h' => ?_⟩
  · cases t with
    | true => exact .inl ⟨(), some token, rfl⟩
    | false => exact .inr ⟨(), Demo.projectId.val, rfl⟩
  · cases t with
    | true =>
        cases t' with
        | true => rfl
        | false => cases h'
    | false => cases h

/-- The node after some steps of the two handlers. -/
def play (token : JsString) (tasks : List Bool) : GatewayPool Bool Unit :=
  tasks.foldl (Pool.advance (Gateway.step verify)) (start token)

theorem play_snoc (token : JsString) (tasks : List Bool) (t : Bool) :
    play token (tasks ++ [t]) = (play token tasks).advance (Gateway.step verify) t := by
  rw [play, List.foldl_append]
  rfl

theorem run_play (token : JsString) (tasks : List Bool) :
    Run (GatewayStep verify) (start token) (tasks.map .run) (play token tasks) := by
  induction tasks using List.reverseRecOn with
  | nil => exact .nil
  | append_singleton tasks t ih =>
      rw [List.map_append]
      exact ih.snoc (play_snoc token tasks t)

theorem run_filtered (token : JsString) (tasks : List Bool)
    (hfiltered : ∀ n, (h : n < tasks.length) →
      Filtered (play token (tasks.take n)) (.run (tasks.get ⟨n, h⟩))) :
    Run (Guarded (GatewayStep verify) Filtered) (start token) (tasks.map .run)
      (play token tasks) := by
  induction tasks using List.reverseRecOn with
  | nil => exact .nil
  | append_singleton tasks t ih =>
      rw [List.map_append]
      refine (ih fun n h => ?_).snoc ⟨play_snoc token tasks t, ?_⟩
      · have hlt : n < (tasks ++ [t]).length := by
          rw [List.length_append]
          omega
        have hn := hfiltered n hlt
        rwa [List.take_append_of_le_length (Nat.le_of_lt h), List.get_eq_getElem,
          List.getElem_append_left h] at hn
      · have hlt : tasks.length < (tasks ++ [t]).length := by simp
        have hlast := hfiltered tasks.length hlt
        simpa using hlast

/-- `handleConnection` first, then the join. -/
def inOrder : List Bool := [true, true, true, false, false, false]

/-- The join alone, before `handleConnection` has looked at the token. -/
def early : List Bool := [false, false, false]

end RoomAccess.Samples

open RoomAccess.Samples in
theorem joins_authorized_in_order :
    (play (js "good") inOrder).store.joins.length = 1 ∧
      ∃ r ∈ (play (js "good") inOrder).store.joins, r.Authorized := by
  have hrun := run_filtered (js "good") inOrder (by decide)
  have hauth := (joins_authorized_of_filtered (start_initial (js "good")) hrun).1
  exact ⟨by decide, _, List.mem_singleton_self _, hauth _ (List.mem_singleton_self _)⟩

open RoomAccess.Samples in
/-- A socket whose token is not good is in the project's room. -/
theorem unauthenticated_join :
    GatewayInitial (start (js "bad")) ∧
      Run (GatewayStep verify) (start (js "bad")) (early.map .run) (play (js "bad") early) ∧
      projectRoom Demo.orgId.val Demo.projectId.val ∈
        ((play (js "bad") early).store.socket ()).joined ∧
      ∃ r ∈ (play (js "bad") early).store.joins, ¬r.Authorized := by
  refine ⟨start_initial _, run_play _ early, by decide, _, List.mem_singleton_self _, ?_⟩
  rintro ⟨u, hu, _⟩
  cases hu

end PmSaas
