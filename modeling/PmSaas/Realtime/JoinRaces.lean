import PmSaas.Realtime.Presence

/-!
# Joins that are overtaken

`onJoin` suspends at its lookup, while `onLeave` and `handleDisconnect` run to their end at once.  A
leave or a closed connection that comes in between finds nothing to undo, and the join goes on as if
nothing had happened: the socket is in a room it left, or a closed socket is counted for ever
(`join_overtaken`).

* `Sessions` keeps, beside the node, the last `project:join` or `project:leave` of every socket for
  every project;
* `rooms_agree_of_unhurried` — in every run in which nobody leaves a project or closes the
  connection with a join of it pending, the rooms, `client.data.rooms` and the presence are, once
  the handlers have finished, what the last messages ask for.
-/

namespace PmSaas

open Table TransitionSystem

/-- The generated ids of the projects and their organizations. -/
def Db.ProjectIds (db : Db) : Prop :=
  ∀ p ∈ db.projects, cuidFormat p.id = true ∧ cuidFormat p.organizationId = true

instance (db : Db) : Decidable db.ProjectIds := List.decidableBAll ..

theorem Db.joinLookup_project {projectId : JsString} {userId : Option JsString} {db : Db}
    {organizationId : JsString} (h : db.joinLookup projectId userId = some organizationId) :
    ∃ p ∈ db.projects, p.id = projectId ∧ p.organizationId = organizationId := by
  obtain ⟨p, hp, hsome⟩ := Option.bind_eq_some_iff.1 h
  refine ⟨p, List.mem_of_find?_eq_some hp, by simpa using List.find?_some hp, ?_⟩
  split at hsome
  · exact Option.some.inj hsome
  · cases hsome

/-- The socket and the project of a join that is between its dispatch and its end. -/
def Task.pendingJoin {ι : Type*} : Task ι → Option (ι × JsString)
  | .lookup client projectId _ => some (client, projectId)
  | .enterRoom client projectId _ _ _ => some (client, projectId)
  | _ => none

/-- The organization a lookup has found. -/
def Task.found {ι : Type*} : Task ι → Option JsString
  | .enterRoom _ _ _ organizationId _ => some organizationId
  | _ => none

/-- The last message of a socket about a project.  A join is authorized when its lookup finds the
project's organization. -/
inductive LastMessage (τ : Type*) where
  | leave
  | join (task : τ) (organizationId : Option JsString)
  deriving DecidableEq

structure Sessions (τ ι : Type*) where
  node : GatewayPool τ ι
  last : ι → JsString → LastMessage τ

inductive SessionAction (τ ι : Type*) where
  | run (task : τ)
  | event (e : NodeEvent ι)

section Model

variable {τ ι : Type*} [DecidableEq τ] [DecidableEq ι]

namespace Sessions

def note (s : Sessions τ ι) (client : ι) (projectId : JsString) (message : LastMessage τ) :
    ι → JsString → LastMessage τ :=
  Function.update s.last client (Function.update (s.last client) projectId message)

/-- The last messages after task `t` has made a step. -/
def noteTask (s : Sessions τ ι) (t : τ) : ι → JsString → LastMessage τ :=
  match s.node.thread t with
  | .join client projectId => s.note client projectId (.join t none)
  | .lookup client projectId userId =>
      if s.last client projectId = .join t none then
        s.note client projectId (.join t (s.node.store.db.joinLookup projectId userId))
      else s.last
  | _ => s.last

def noteEvent (s : Sessions τ ι) : NodeEvent ι → ι → JsString → LastMessage τ
  | .leave client projectId => s.note client projectId .leave
  | _ => s.last

def next (verify : JsString → Option JsString) (s : Sessions τ ι) :
    SessionAction τ ι → Sessions τ ι
  | .run t => ⟨s.node.advance (Gateway.step verify) t, s.noteTask t⟩
  | .event e => ⟨{ s.node with store := s.node.store.handle e }, s.noteEvent e⟩

/-- A join is dispatched for a connected socket that has not joined the project since it last left
it. -/
def Dispatches (s : Sessions τ ι) : Task ι → Prop
  | .join client projectId =>
      (s.node.store.socket client).connected = true ∧ s.last client projectId = .leave
  | _ => True

def Enabled (s : Sessions τ ι) : SessionAction τ ι → Prop
  | .run t => s.Dispatches (s.node.thread t)
  | .event (.database db) => db.ProjectIds
  | .event e => ∀ client ∈ e.sender, (s.node.store.socket client).connected = true

instance (s : Sessions τ ι) : ∀ task, Decidable (s.Dispatches task)
  | .join _ _ => inferInstanceAs (Decidable (_ ∧ _))
  | .lookup _ _ _ | .enterRoom _ _ _ _ _ | .connect _ _ | .findUser _ _ | .attach _ _ | .done =>
      isTrue trivial

instance (s : Sessions τ ι) : ∀ a, Decidable (s.Enabled a)
  | .run t => inferInstanceAs (Decidable (s.Dispatches (s.node.thread t)))
  | .event (.database db) => inferInstanceAs (Decidable db.ProjectIds)
  | .event (.leave _ _) | .event (.cursor _ _ _) | .event (.disconnect _) =>
      inferInstanceAs (Decidable (∀ _ ∈ NodeEvent.sender _, _ = _))

/-- The condition on a step: no message overtakes a join.  A socket neither leaves a project nor
goes away while a join of it is between its dispatch and its end. -/
def Unhurried (s : Sessions τ ι) : SessionAction τ ι → Prop
  | .event (.leave client projectId) =>
      ∀ t, (s.node.thread t).pendingJoin ≠ some (client, projectId)
  | .event (.disconnect client) =>
      ∀ t, (s.node.thread t).pendingJoin.map Prod.fst ≠ some client
  | _ => True

instance [Fintype τ] (s : Sessions τ ι) : ∀ a, Decidable (s.Unhurried a)
  | .event (.leave _ _) | .event (.disconnect _) => inferInstanceAs (Decidable (∀ _, _ ≠ _))
  | .event (.cursor _ _ _) | .event (.database _) | .run _ => isTrue trivial

/-- Every handler that was dispatched is at its end. -/
def Finished (s : Sessions τ ι) : Prop := ∀ t, (s.node.thread t).pendingJoin = none

instance [Fintype τ] (s : Sessions τ ι) : Decidable s.Finished :=
  inferInstanceAs (Decidable (∀ _, _ = _))

/-- The socket is connected, and its last message about the room's project was an authorized
join. -/
def Wants (s : Sessions τ ι) (client : ι) (room : JsString) : Prop :=
  (s.node.store.socket client).connected = true ∧ ∃ projectId organizationId t,
    s.last client projectId = .join t (some organizationId) ∧
      projectRoom organizationId projectId = room

/-- Rooms, `client.data.rooms` and presence are as the last messages ask. -/
structure RoomsAgree (s : Sessions τ ι) : Prop where
  joined : ∀ i room, room ∈ (s.node.store.socket i).joined ↔ s.Wants i room
  rooms : ∀ i room, room ∈ s.node.store.rooms i ↔ s.Wants i room
  counted : ∀ room userId, ∃ wanting : Finset ι,
    (∀ i, i ∈ wanting ↔ s.node.store.userOf i = some userId ∧ s.Wants i room) ∧
      s.node.store.sockets room userId = wanting.card

end Sessions

/-- One step of a handler, or an event. -/
abbrev SessionStep (verify : JsString → Option JsString) :
    Sessions τ ι → SessionAction τ ι → Sessions τ ι → Prop :=
  Steps Sessions.Enabled (Sessions.next verify)

/-- Every `handleConnection` is through, no join is dispatched and none was sent before. -/
structure SessionStart (s : Sessions τ ι) : Prop where
  opened : Opened s.node.store
  ids : s.node.store.db.ProjectIds
  tasks : ∀ t, ∃ client projectId, s.node.thread t = .join client projectId
  last : ∀ i projectId, s.last i projectId = .leave

namespace Sessions

/-! ### What the last messages and the rooms have in common -/

/-- The last message was an authorized join, and its handler is at its end. -/
def Arrived (s : Sessions τ ι) (client : ι) (projectId organizationId : JsString) : Prop :=
  ∃ t, s.last client projectId = .join t (some organizationId) ∧
    (s.node.thread t).pendingJoin = none

/-- The socket has got into the room its last message asked for. -/
def Entered (s : Sessions τ ι) (client : ι) (room : JsString) : Prop :=
  (s.node.store.socket client).connected = true ∧ ∃ projectId organizationId,
    s.Arrived client projectId organizationId ∧ projectRoom organizationId projectId = room

/-- Every pending join is the last message of its socket for its project, the lookups that found
something found generated ids, and sockets are in the rooms they have entered. -/
structure Tracked (s : Sessions τ ι) : Prop where
  joins : ∀ t, (s.node.thread t).connecting = none
  pending : ∀ t client projectId, (s.node.thread t).pendingJoin = some (client, projectId) →
    (s.node.store.socket client).connected = true ∧
      s.last client projectId = .join t (s.node.thread t).found
  served : ∀ client projectId t organizationId,
    s.last client projectId = .join t organizationId →
      s.node.thread t = .done ∨ (s.node.thread t).pendingJoin = some (client, projectId)
  named : ∀ client projectId t organizationId,
    s.last client projectId = .join t (some organizationId) →
      cuidFormat organizationId = true ∧ cuidFormat projectId = true
  ids : s.node.store.db.ProjectIds
  rooms : ∀ i room, room ∈ s.node.store.rooms i ↔ s.Entered i room
  joined : ∀ i room, room ∈ (s.node.store.socket i).joined ↔ s.Entered i room

omit [DecidableEq τ] in
theorem note_self (s : Sessions τ ι) (client : ι) (projectId : JsString)
    (message : LastMessage τ) : s.note client projectId message client projectId = message := by
  rw [note, Function.update_self, Function.update_self]

omit [DecidableEq τ] in
theorem note_of_ne (s : Sessions τ ι) {client i : ι} {projectId p : JsString}
    (message : LastMessage τ) (h : (i, p) ≠ (client, projectId)) :
    s.note client projectId message i p = s.last i p := by
  by_cases hi : i = client
  · subst hi
    have hp : p ≠ projectId := fun hp => h (by rw [hp])
    rw [note, Function.update_self, Function.update_of_ne hp]
  · rw [note, Function.update_of_ne hi]

section Steps

variable {s s' : Sessions τ ι} {t : τ} {client : ι} {projectId : JsString}

omit [DecidableEq ι] [DecidableEq τ] in
/-- Two entered rooms of one name are the same project's. -/
theorem Tracked.arrived_of_entered (h : s.Tracked) {organizationId : JsString}
    (horg : cuidFormat organizationId = true)
    (hentered : s.Entered client (projectRoom organizationId projectId)) :
    s.Arrived client projectId organizationId := by
  obtain ⟨_, p, o, ⟨t, hlast, hdone⟩, hroom⟩ := hentered
  obtain ⟨rfl, rfl⟩ := projectRoom_eq (h.named client p t o hlast).1 horg hroom
  exact ⟨t, hlast, hdone⟩

omit [DecidableEq ι] [DecidableEq τ] in
/-- The last message of a socket waits for its task, unless the task is done. -/
theorem Tracked.own (h : s.Tracked) (hundone : s.node.thread t ≠ .done) {i : ι} {p : JsString}
    {o : Option JsString} (hjoin : s.last i p = .join t o) :
    (s.node.thread t).pendingJoin = some (i, p) :=
  (h.served i p t o hjoin).resolve_left hundone

/-- The join `t` makes a step before its entry and goes on as `task`.  It has the last message of
its socket for its project to itself. -/
structure GoesOn (s s' : Sessions τ ι) (t : τ) (client : ι) (projectId : JsString) (task : Task ι)
    (found : Option JsString) : Prop where
  thread : s'.node.thread = Function.update s.node.thread t task
  store : s'.node.store = s.node.store
  last : s'.last = s.note client projectId (.join t found)
  connected : (s.node.store.socket client).connected = true
  free : s.last client projectId = .leave ∨ s.last client projectId = .join t none
  own : ∀ i p o, s.last i p = .join t o → (i, p) = (client, projectId)
  task : task.pendingJoin = some (client, projectId) ∧ task.found = found ∧
    task.connecting = none ∨ task = .done ∧ found = none
  named : ∀ o ∈ found, cuidFormat o = true ∧ cuidFormat projectId = true

namespace GoesOn

variable {task : Task ι} {found : Option JsString}

theorem thread_self (hs : s.GoesOn s' t client projectId task found) :
    s'.node.thread t = task := by
  rw [hs.thread, Function.update_self]

theorem thread_of_ne (hs : s.GoesOn s' t client projectId task found) {t' : τ} (ht : t' ≠ t) :
    s'.node.thread t' = s.node.thread t' := by
  rw [hs.thread, Function.update_of_ne ht]

theorem last_self (hs : s.GoesOn s' t client projectId task found) :
    s'.last client projectId = .join t found := by
  rw [hs.last, note_self]

theorem last_of_ne (hs : s.GoesOn s' t client projectId task found) {i : ι} {p : JsString}
    (hip : (i, p) ≠ (client, projectId)) : s'.last i p = s.last i p := by
  rw [hs.last, note_of_ne s _ hip]

/-- No join arrives. -/
theorem arrived (hs : s.GoesOn s' t client projectId task found) (i : ι) (p o : JsString) :
    s'.Arrived i p o ↔ s.Arrived i p o := by
  by_cases hip : (i, p) = (client, projectId)
  · cases hip
    refine iff_of_false ?_ ?_
    · rintro ⟨t', hjoin, hdone⟩
      rw [hs.last_self] at hjoin
      cases hjoin
      rcases hs.task with ⟨hpending, _⟩ | ⟨_, hnone⟩
      · rw [hs.thread_self, hpending] at hdone
        cases hdone
      · cases hnone
    · rintro ⟨t', hjoin, _⟩
      rcases hs.free with hleave | hnone
      · rw [hleave] at hjoin
        cases hjoin
      · rw [hnone] at hjoin
        cases hjoin
  · unfold Arrived
    rw [hs.last_of_ne hip]
    refine exists_congr fun t' => and_congr_right fun hjoin => ?_
    have hne : t' ≠ t := by
      rintro rfl
      exact hip (hs.own i p _ hjoin)
    rw [hs.thread_of_ne hne]

theorem entered (hs : s.GoesOn s' t client projectId task found) (i : ι) (room : JsString) :
    s'.Entered i room ↔ s.Entered i room := by
  simp only [Entered, hs.store, hs.arrived]

theorem connecting (hs : s.GoesOn s' t client projectId task found) (h : s.Tracked) (t' : τ) :
    (s'.node.thread t').connecting = none := by
  by_cases ht : t' = t
  · rw [ht, hs.thread_self]
    rcases hs.task with ⟨_, _, hconnecting⟩ | ⟨rfl, _⟩
    · exact hconnecting
    · rfl
  · rw [hs.thread_of_ne ht]
    exact h.joins t'

theorem pending (hs : s.GoesOn s' t client projectId task found) (h : s.Tracked) {t' : τ} {i : ι}
    {p : JsString} (hp : (s'.node.thread t').pendingJoin = some (i, p)) :
    (s.node.store.socket i).connected = true ∧
      s'.last i p = .join t' (s'.node.thread t').found := by
  by_cases ht : t' = t
  · subst ht
    rw [hs.thread_self] at hp ⊢
    rcases hs.task with ⟨hpending, hfound, _⟩ | ⟨rfl, _⟩
    · rw [hpending] at hp
      cases hp
      exact ⟨hs.connected, hfound.symm ▸ hs.last_self⟩
    · cases hp
  · rw [hs.thread_of_ne ht] at hp ⊢
    have hpending := h.pending t' i p hp
    rw [hs.last_of_ne]
    · exact hpending
    · intro hip
      cases hip
      rcases hs.free with hleave | hnone
      · exact absurd (hleave.symm.trans hpending.2) nofun
      · rw [hnone] at hpending
        exact ht (LastMessage.join.inj hpending.2).1.symm

theorem served (hs : s.GoesOn s' t client projectId task found) (h : s.Tracked) {i : ι}
    {p : JsString} {t' : τ} {o : Option JsString} (ho : s'.last i p = .join t' o) :
    s'.node.thread t' = .done ∨ (s'.node.thread t').pendingJoin = some (i, p) := by
  by_cases hip : (i, p) = (client, projectId)
  · cases hip
    rw [hs.last_self] at ho
    cases ho
    rw [hs.thread_self]
    exact hs.task.elim (fun hpending => .inr hpending.1) fun hdone => .inl hdone.1
  · rw [hs.last_of_ne hip] at ho
    have hne : t' ≠ t := by
      rintro rfl
      exact hip (hs.own i p o ho)
    rw [hs.thread_of_ne hne]
    exact h.served i p t' o ho

theorem tracked (hs : s.GoesOn s' t client projectId task found) (h : s.Tracked) :
    s'.Tracked := by
  refine ⟨hs.connecting h, fun t' i p hp => ?_, fun i p t' o ho => hs.served h ho,
    fun i p t' o ho => ?_, hs.store ▸ h.ids, fun i room => ?_, fun i room => ?_⟩
  · rw [hs.store]
    exact hs.pending h hp
  · by_cases hip : (i, p) = (client, projectId)
    · cases hip
      rw [hs.last_self] at ho
      exact hs.named o (LastMessage.join.inj ho).2
    · rw [hs.last_of_ne hip] at ho
      exact h.named i p t' o ho
  · rw [hs.store, hs.entered]
    exact h.rooms i room
  · rw [hs.store, hs.entered]
    exact h.joined i room

end GoesOn

theorem Tracked.dispatch (h : s.Tracked) (verify : JsString → Option JsString)
    (ht : s.node.thread t = .join client projectId)
    (hc : (s.node.store.socket client).connected = true)
    (hlast : s.last client projectId = .leave) : (s.next verify (.run t)).Tracked := by
  have hs : s.GoesOn (s.next verify (.run t)) t client projectId
      (.lookup client projectId ((s.node.store.socket client).data.map SocketData.userId))
      none := by
    refine ⟨?_, ?_, ?_, hc, .inl hlast, fun i p o hjoin => ?_, .inl ⟨rfl, rfl, rfl⟩,
      fun o ho => by cases ho⟩
    · simp only [next, Pool.advance, ht, Gateway.step]
    · simp only [next, Pool.advance, ht, Gateway.step]
    · simp only [next, noteTask, ht]
    · have hpending := h.own (by simp [ht]) hjoin
      rw [ht] at hpending
      cases hpending
  exact hs.tracked h

/-- The lookup tells whether the join is authorized. -/
theorem Tracked.lookUp (h : s.Tracked) (verify : JsString → Option JsString)
    {userId : Option JsString} (ht : s.node.thread t = .lookup client projectId userId) :
    (s.next verify (.run t)).Tracked := by
  obtain ⟨hc, hlast⟩ := h.pending t client projectId (by rw [ht]; rfl)
  rw [show (s.node.thread t).found = none by rw [ht]; rfl] at hlast
  have hown : ∀ i p o, s.last i p = .join t o → (i, p) = (client, projectId) := by
    intro i p o hjoin
    have hpending := h.own (by simp [ht]) hjoin
    rw [ht] at hpending
    cases hpending
    rfl
  have hnote : (s.next verify (.run t)).last = s.note client projectId
      (.join t (s.node.store.db.joinLookup projectId userId)) := by
    simp only [next, noteTask, ht, if_pos hlast]
  cases hfound : s.node.store.db.joinLookup projectId userId with
  | none =>
      rw [hfound] at hnote
      have hs : s.GoesOn (s.next verify (.run t)) t client projectId .done none := by
        refine ⟨?_, ?_, hnote, hc, .inr hlast, hown, .inr ⟨rfl, rfl⟩,
          fun o ho => by cases ho⟩
        all_goals simp only [next, Pool.advance, ht, Gateway.step, hfound]
      exact hs.tracked h
  | some organizationId =>
      rw [hfound] at hnote
      have hs : s.GoesOn (s.next verify (.run t)) t client projectId
          (.enterRoom client projectId userId organizationId s.node.store.db)
          (some organizationId) := by
        refine ⟨?_, ?_, hnote, hc, .inr hlast, hown, .inl ⟨rfl, rfl, rfl⟩, fun o ho => ?_⟩
        · simp only [next, Pool.advance, ht, Gateway.step, hfound]
        · simp only [next, Pool.advance, ht, Gateway.step, hfound]
        · cases ho
          obtain ⟨p, hp, rfl, rfl⟩ := Db.joinLookup_project hfound
          exact (h.ids p hp).symm
      exact hs.tracked h

/-- The sessions after task `t` has entered its room. -/
def entering (s : Sessions τ ι) (t : τ) (client : ι) (projectId organizationId : JsString)
    (seen : Db) : Sessions τ ι where
  node :=
    { store := s.node.store.enter client projectId organizationId seen
      thread := Function.update s.node.thread t .done }
  last := s.last

/-- The step that enters the room. -/
theorem next_enterRoom (verify : JsString → Option JsString) {userId : Option JsString}
    {organizationId : JsString} {seen : Db}
    (ht : s.node.thread t = .enterRoom client projectId userId organizationId seen) :
    s.next verify (.run t) = s.entering t client projectId organizationId seen := by
  simp only [next, noteTask, ht, Pool.advance, Gateway.step, entering]

section Enter

variable {userId : Option JsString} {organizationId : JsString} {seen : Db} {data : SocketData}

omit [DecidableEq ι] [DecidableEq τ] in
/-- A join that is about to enter its room has the last message of its socket for its project, and
no other. -/
theorem Tracked.entering_last (h : s.Tracked)
    (ht : s.node.thread t = .enterRoom client projectId userId organizationId seen) :
    (s.node.store.socket client).connected = true ∧
      s.last client projectId = .join t (some organizationId) ∧
      ∀ i p o, s.last i p = .join t o → (i, p) = (client, projectId) ∧ o = some organizationId := by
  obtain ⟨hc, hlast⟩ := h.pending t client projectId (by rw [ht]; rfl)
  rw [show (s.node.thread t).found = some organizationId by rw [ht]; rfl] at hlast
  refine ⟨hc, hlast, fun i p o hjoin => ?_⟩
  have hpending := h.own (by simp [ht]) hjoin
  rw [ht] at hpending
  cases hpending
  rw [hlast] at hjoin
  cases hjoin
  exact ⟨rfl, rfl⟩

omit [DecidableEq ι] [DecidableEq τ] in
/-- A join that is about to enter its room is for a room the socket does not have. -/
theorem Tracked.fresh (h : s.Tracked)
    (ht : s.node.thread t = .enterRoom client projectId userId organizationId seen) :
    ¬s.Entered client (projectRoom organizationId projectId) := by
  intro hentered
  obtain ⟨_, hlast, _⟩ := h.entering_last ht
  obtain ⟨t', hjoin, hdone⟩ :=
    h.arrived_of_entered (h.named client projectId t organizationId hlast).1 hentered
  rw [hlast] at hjoin
  cases hjoin
  rw [ht] at hdone
  cases hdone

theorem Tracked.arrived_entering (h : s.Tracked)
    (ht : s.node.thread t = .enterRoom client projectId userId organizationId seen) (i : ι)
    (p o : JsString) :
    (s.entering t client projectId organizationId seen).Arrived i p o ↔
      s.Arrived i p o ∨ i = client ∧ p = projectId ∧ o = organizationId := by
  obtain ⟨_, hlast, hown⟩ := h.entering_last ht
  constructor
  · rintro ⟨t', hjoin, hdone⟩
    by_cases hne : t' = t
    · subst hne
      obtain ⟨hip, ho⟩ := hown i p _ hjoin
      cases hip
      cases ho
      exact .inr ⟨rfl, rfl, rfl⟩
    · simp only [entering, Function.update_of_ne hne] at hdone
      exact .inl ⟨t', hjoin, hdone⟩
  · rintro (⟨t', hjoin, hdone⟩ | ⟨rfl, rfl, rfl⟩)
    · have hne : t' ≠ t := by
        rintro rfl
        rw [ht] at hdone
        cases hdone
      refine ⟨t', hjoin, ?_⟩
      simpa only [entering, Function.update_of_ne hne] using hdone
    · refine ⟨t, hlast, ?_⟩
      simp only [entering, Function.update_self]
      rfl

theorem Tracked.entered_entering (h : s.Tracked)
    (ht : s.node.thread t = .enterRoom client projectId userId organizationId seen)
    (hd : (s.node.store.socket client).data = some data) (i : ι) (room : JsString) :
    (s.entering t client projectId organizationId seen).Entered i room ↔
      s.Entered i room ∨ i = client ∧ room = projectRoom organizationId projectId := by
  have hconnected : ∀ i, ((s.entering t client projectId organizationId
      seen).node.store.socket i).connected = (s.node.store.socket i).connected :=
    Gateway.enter_connected projectId organizationId seen hd
  unfold Entered
  simp only [hconnected, h.arrived_entering ht]
  constructor
  · rintro ⟨hci, p, o, harr | ⟨rfl, rfl, rfl⟩, rfl⟩
    · exact .inl ⟨hci, p, o, harr, rfl⟩
    · exact .inr ⟨rfl, rfl⟩
  · rintro (⟨hci, p, o, harr, rfl⟩ | ⟨rfl, rfl⟩)
    · exact ⟨hci, p, o, .inl harr, rfl⟩
    · exact ⟨(h.entering_last ht).1, projectId, organizationId, .inr ⟨rfl, rfl, rfl⟩, rfl⟩

theorem Tracked.enterRoom (h : s.Tracked) (verify : JsString → Option JsString)
    (ht : s.node.thread t = .enterRoom client projectId userId organizationId seen)
    (hd : (s.node.store.socket client).data = some data) :
    (s.next verify (.run t)).Tracked := by
  have hc := (h.entering_last ht).1
  have hfresh : projectRoom organizationId projectId ∉ data.rooms := by
    rw [← Gateway.rooms_of_data hd, h.rooms]
    exact h.fresh ht
  have hsocket := Gateway.enter_socket projectId organizationId seen hd
  rw [next_enterRoom verify ht]
  refine ⟨fun t' => ?_, fun t' i p hp => ?_, fun i p t' o ho => ?_, h.named, ?_,
    fun i room => ?_, fun i room => ?_⟩
  · by_cases hne : t' = t
    · subst hne
      simp only [entering, Function.update_self]
      rfl
    · simp only [entering, Function.update_of_ne hne]
      exact h.joins t'
  · by_cases hne : t' = t
    · subst hne
      simp only [entering, Function.update_self] at hp
      cases hp
    · simp only [entering, Function.update_of_ne hne] at hp ⊢
      rw [Gateway.enter_connected projectId organizationId seen hd]
      exact h.pending t' i p hp
  · by_cases hne : t' = t
    · subst hne
      exact .inl (Function.update_self ..)
    · simp only [entering, Function.update_of_ne hne]
      exact h.served i p t' o ho
  · simp only [entering, Gateway.enter_db]
    exact h.ids
  · rw [h.entered_entering ht hd, ← h.rooms]
    by_cases hi : i = client
    · subst hi
      simp [entering, Gateway.rooms, hsocket, SocketState.inside, hd, hfresh]
    · simp [entering, Gateway.rooms, hsocket, hi]
  · rw [h.entered_entering ht hd, ← h.joined]
    by_cases hi : i = client
    · subst hi
      simp [entering, hsocket, SocketState.inside, hc]
    · simp [entering, hsocket, hi]

end Enter

/-- The sessions after a socket has left a project. -/
def leaving (s : Sessions τ ι) (client : ι) (projectId : JsString) : Sessions τ ι where
  node := { s.node with store := s.node.store.onLeave client projectId }
  last := s.note client projectId .leave

section Leave

variable {data : SocketData}

omit [DecidableEq τ] in
theorem leaving_last_self : (s.leaving client projectId).last client projectId = .leave :=
  note_self s client projectId .leave

omit [DecidableEq τ] in
theorem leaving_last_of_ne {i : ι} {p : JsString} (hip : (i, p) ≠ (client, projectId)) :
    (s.leaving client projectId).last i p = s.last i p :=
  note_of_ne s .leave hip

omit [DecidableEq τ] in
theorem arrived_leaving (i : ι) (p o : JsString) :
    (s.leaving client projectId).Arrived i p o ↔
      s.Arrived i p o ∧ (i, p) ≠ (client, projectId) := by
  by_cases hip : (i, p) = (client, projectId)
  · cases hip
    refine iff_of_false ?_ fun hne => hne.2 rfl
    rintro ⟨t', hjoin, _⟩
    rw [leaving_last_self] at hjoin
    cases hjoin
  · unfold Arrived
    rw [leaving_last_of_ne hip]
    exact (and_iff_left hip).symm

omit [DecidableEq τ] in
theorem Tracked.entered_leaving (h : s.Tracked)
    (hd : (s.node.store.socket client).data = some data) (i : ι) (room : JsString) :
    (s.leaving client projectId).Entered i room ↔
      s.Entered i room ∧ ¬(i = client ∧ isRoomOf projectId room = true) := by
  have hconnected : ∀ i, ((s.leaving client projectId).node.store.socket i).connected =
      (s.node.store.socket i).connected := Gateway.onLeave_connected hd projectId
  unfold Entered
  simp only [hconnected, arrived_leaving]
  constructor
  · rintro ⟨hci, p, o, ⟨⟨t', hjoin, hdone⟩, hne⟩, rfl⟩
    refine ⟨⟨hci, p, o, ⟨t', hjoin, hdone⟩, rfl⟩, ?_⟩
    rintro ⟨rfl, hroom⟩
    obtain ⟨ho, hp⟩ := h.named i p t' o hjoin
    exact hne (by rw [(isRoomOf_projectRoom ho hp).1 hroom])
  · rintro ⟨⟨hci, p, o, ⟨t', hjoin, hdone⟩, rfl⟩, hnot⟩
    refine ⟨hci, p, o, ⟨⟨t', hjoin, hdone⟩, ?_⟩, rfl⟩
    intro hip
    obtain ⟨rfl, rfl⟩ := Prod.mk.inj hip
    obtain ⟨ho, hp⟩ := h.named i p t' o hjoin
    exact hnot ⟨rfl, (isRoomOf_projectRoom ho hp).2 rfl⟩

omit [DecidableEq τ] in
/-- A join that is the last message was the last message before, unless the project is left. -/
theorem leaving_last_join {i : ι} {p : JsString} {o : Option JsString}
    (ho : (s.leaving client projectId).last i p = .join t o) : s.last i p = .join t o := by
  by_cases hip : (i, p) = (client, projectId)
  · cases hip
    rw [leaving_last_self] at ho
    cases ho
  · rwa [leaving_last_of_ne hip] at ho

omit [DecidableEq τ] in
/-- Leaving a project that is not being joined. -/
theorem Tracked.leave (h : s.Tracked) (hd : (s.node.store.socket client).data = some data)
    (hquiet : ∀ t, (s.node.thread t).pendingJoin ≠ some (client, projectId)) :
    (s.leaving client projectId).Tracked := by
  have hsocket := Gateway.onLeave_socket hd projectId
  refine ⟨h.joins, fun t' i p hp => ?_, fun i p t' o ho => h.served i p t' o (leaving_last_join ho),
    fun i p t' o ho => h.named i p t' o (leaving_last_join ho), ?_, fun i room => ?_,
    fun i room => ?_⟩
  · have hip : (i, p) ≠ (client, projectId) := fun hip => hquiet t' (hip ▸ hp)
    rw [leaving_last_of_ne hip]
    simp only [leaving, Gateway.onLeave_connected hd]
    exact h.pending t' i p hp
  · simp only [leaving, Gateway.onLeave, hd, Gateway.leaveRooms_db]
    exact h.ids
  · rw [h.entered_leaving hd, ← h.rooms]
    by_cases hi : i = client
    · subst hi
      have hmem : room ∈ data.rooms.filter (· ∉ data.rooms.filter (isRoomOf projectId)) ↔
          room ∈ data.rooms ∧ ¬isRoomOf projectId room = true := by
        simp only [List.mem_filter, decide_eq_true_eq, not_and]
        exact and_congr_right fun hroom => ⟨fun hnot => hnot hroom, fun hnot _ => hnot⟩
      simpa [leaving, Gateway.rooms, hsocket, SocketState.without, hd] using hmem
    · simp [leaving, Gateway.rooms, hsocket, hi]
  · rw [h.entered_leaving hd, ← h.joined]
    by_cases hi : i = client
    · subst hi
      have hrooms : room ∈ data.rooms ↔ room ∈ (s.node.store.socket i).joined := by
        rw [h.joined, ← h.rooms, Gateway.rooms_of_data hd]
      have hcontra : room ∈ (s.node.store.socket i).joined →
          room ∉ (s.node.store.socket i).joined → isRoomOf projectId room = false :=
        fun hin hout => absurd hin hout
      simpa [leaving, hsocket, SocketState.without, hrooms] using hcontra
    · simp [leaving, hsocket, hi]

end Leave

omit [DecidableEq τ] in
/-- A connection closes while its socket is not joining anything. -/
theorem Tracked.disconnect (h : s.Tracked) {data : SocketData}
    (hd : (s.node.store.socket client).data = some data)
    (hc : (s.node.store.socket client).connected = true)
    (hquiet : ∀ t, (s.node.thread t).pendingJoin.map Prod.fst ≠ some client) :
    Tracked ⟨{ s.node with store := s.node.store.disconnect client }, s.last⟩ := by
  have hsocket := Gateway.disconnect_socket hd hc
  have hentered : ∀ i room,
      Entered ⟨{ s.node with store := s.node.store.disconnect client }, s.last⟩ i room ↔
        s.Entered i room ∧ i ≠ client := by
    intro i room
    unfold Entered
    by_cases hi : i = client
    · subst hi
      refine iff_of_false ?_ fun hne => hne.2 rfl
      rintro ⟨hclosed, _⟩
      simp only [hsocket, Function.update_self] at hclosed
      cases hclosed
    · simp only [hsocket, Function.update_of_ne hi]
      exact (and_iff_left hi).symm
  refine ⟨h.joins, fun t' i p hp => ?_, h.served, h.named, ?_, fun i room => ?_, fun i room => ?_⟩
  · have hi : i ≠ client := by
      rintro rfl
      exact hquiet t' (by rw [hp]; rfl)
    simp only [hsocket, Function.update_of_ne hi]
    exact h.pending t' i p hp
  · simp only [Gateway.disconnect_eq hd hc, Gateway.leaveRooms_db]
    exact h.ids
  · rw [hentered, ← h.rooms]
    by_cases hi : i = client
    · subst hi
      simp [Gateway.rooms, hsocket]
    · simp [Gateway.rooms, hsocket, hi]
  · rw [hentered, ← h.joined]
    by_cases hi : i = client
    · subst hi
      simp [hsocket]
    · simp [hsocket, hi]

omit [DecidableEq ι] [DecidableEq τ] in
/-- The sockets stay as they are. -/
theorem Tracked.still (h : s.Tracked) {store : Gateway ι}
    (hsocket : store.socket = s.node.store.socket)
    (hids : store.db.ProjectIds) : Tracked ⟨{ s.node with store := store }, s.last⟩ := by
  have hentered : ∀ i room,
      Entered ⟨{ s.node with store := store }, s.last⟩ i room ↔ s.Entered i room := by
    intro i room
    unfold Entered
    rw [hsocket]
    rfl
  refine ⟨h.joins, hsocket ▸ h.pending, h.served, h.named, hids, fun i room => ?_, fun i room => ?_⟩
  · rw [hentered, ← h.rooms, Gateway.rooms, hsocket, Gateway.rooms]
  · rw [hentered, ← h.joined, hsocket]

variable [Fintype ι]

/-- **What every step of an unhurried session keeps.** -/
theorem Tracked.step (verify : JsString → Option JsString) (h : s.Tracked)
    (hcounted : s.node.store.Counted) {a : SessionAction τ ι}
    (hstep : Guarded (SessionStep verify) Unhurried s a s') :
    s'.Tracked ∧ s'.node.store.Counted := by
  obtain ⟨⟨henabled, rfl⟩, hquiet⟩ := hstep
  cases a with
  | run t =>
      have hidle : ∀ store, s.node.store = store → (s.next verify (.run t)).node.store = store →
          (s.next verify (.run t)).node.store.Counted := by
        intro store hstore hsame
        rw [hsame, ← hstore]
        exact hcounted
      cases ht : s.node.thread t with
      | join client projectId =>
          obtain ⟨hc, hlast⟩ : s.Dispatches (.join client projectId) := ht ▸ henabled
          refine ⟨h.dispatch verify ht hc hlast, hidle _ rfl ?_⟩
          simp only [next, Pool.advance, ht, Gateway.step]
      | lookup client projectId userId =>
          refine ⟨h.lookUp verify ht, hidle _ rfl ?_⟩
          simp only [next, Pool.advance, ht, Gateway.step]
          cases s.node.store.db.joinLookup projectId userId <;> rfl
      | enterRoom client projectId userId organizationId seen =>
          obtain ⟨data, hd⟩ := hcounted.attached client
          refine ⟨h.enterRoom verify ht hd, ?_⟩
          rw [next_enterRoom verify ht]
          exact hcounted.enter (h.pending t client projectId (by rw [ht]; rfl)).1 seen
            fun hroom => h.fresh ht ((h.rooms client _).1 hroom)
      | done =>
          have hsame : s.next verify (.run t) = s := by
            simp only [next, noteTask, Pool.advance, ht, Gateway.step]
            rw [← ht, Function.update_eq_self]
          rw [hsame]
          exact ⟨h, hcounted⟩
      | connect client token => exact absurd (h.joins t) (by simp [ht, Task.connecting])
      | findUser client sub => exact absurd (h.joins t) (by simp [ht, Task.connecting])
      | attach client user => exact absurd (h.joins t) (by simp [ht, Task.connecting])
  | event e =>
      refine ⟨?_, hcounted.handle e⟩
      cases e with
      | leave client projectId =>
          obtain ⟨data, hd⟩ := hcounted.attached client
          exact h.leave hd hquiet
      | cursor client projectId issueId =>
          exact h.still (Gateway.onCursor_socket ..) ((Gateway.onCursor_db ..).symm ▸ h.ids)
      | disconnect client =>
          obtain ⟨data, hd⟩ := hcounted.attached client
          by_cases hc : (s.node.store.socket client).connected = true
          · exact h.disconnect hd hc hquiet
          · have hsame : s.node.store.handle (.disconnect client) = s.node.store := if_neg hc
            exact h.still (congrArg Gateway.socket hsame) (hsame.symm ▸ h.ids)
      | database db => exact h.still rfl henabled

omit [DecidableEq ι] [DecidableEq τ] [Fintype ι] in
theorem Tracked.start (h : SessionStart s) : s.Tracked := by
  have hjoin : ∀ t, (s.node.thread t).pendingJoin = none := by
    intro t
    obtain ⟨client, projectId, ht⟩ := h.tasks t
    rw [ht]
    rfl
  have hsent : ∀ {i p t o}, s.last i p ≠ .join t o := by
    intro i p t o hlast
    rw [h.last] at hlast
    cases hlast
  have hentered : ∀ i room, ¬s.Entered i room := by
    rintro i room ⟨_, p, o, ⟨t, hlast, _⟩, _⟩
    exact hsent hlast
  refine ⟨fun t => ?_, fun t i p hp => ?_, fun i p t o ho => absurd ho hsent,
    fun i p t o ho => absurd ho hsent, h.ids, fun i room => ?_, fun i room => ?_⟩
  · obtain ⟨client, projectId, ht⟩ := h.tasks t
    rw [ht]
    rfl
  · rw [hjoin] at hp
    cases hp
  · obtain ⟨data, hs, hnil⟩ := h.opened.sockets i
    refine iff_of_false ?_ (hentered i room)
    rw [Gateway.rooms, hs]
    simp [hnil]
  · obtain ⟨data, hs, _⟩ := h.opened.sockets i
    refine iff_of_false ?_ (hentered i room)
    rw [hs]
    exact List.not_mem_nil

omit [DecidableEq ι] [DecidableEq τ] [Fintype ι] in
/-- With no join pending, a socket has entered what it asked for. -/
theorem Finished.entered_iff (h : s.Finished) (room : JsString) :
    s.Entered client room ↔ s.Wants client room := by
  refine and_congr_right fun _ => ?_
  constructor
  · rintro ⟨p, o, ⟨t, hlast, _⟩, hroom⟩
    exact ⟨p, o, t, hlast, hroom⟩
  · rintro ⟨p, o, t, hlast, hroom⟩
    exact ⟨p, o, ⟨t, hlast, h t⟩, hroom⟩

end Steps

end Sessions

/-! ### Runs -/

variable [Fintype ι]

/-- **The rooms are what the last messages ask for, as long as no message overtakes a join.** -/
theorem rooms_agree_of_unhurried (verify : JsString → Option JsString) {s₀ s : Sessions τ ι}
    {as : List (SessionAction τ ι)} (hstart : SessionStart s₀)
    (hrun : Run (Guarded (SessionStep verify) Sessions.Unhurried) s₀ as s)
    (hfinished : s.Finished) : s.RoomsAgree := by
  obtain ⟨htracked, hcounted⟩ := hrun.invariant
    (P := fun s => s.Tracked ∧ s.node.store.Counted)
    (fun s a s' hs hstep => hs.1.step verify hs.2 hstep)
    ⟨.start hstart, hstart.opened.counted⟩
  have hwants := fun i room => (htracked.rooms i room).trans (hfinished.entered_iff room)
  refine ⟨fun i room => (htracked.joined i room).trans (hfinished.entered_iff room), hwants,
    fun room userId => ⟨s.node.store.present room userId, fun i => ?_, ?_⟩⟩
  · rw [hcounted.present_eq, ← hwants]
    simp [Gateway.holders]
  · exact (hcounted.exact room userId).1

end Model

/-! ### Two tabs -/

namespace JoinRaces.Samples

open Presence.Samples

/-- Each of two sockets is to join the project once. -/
def start : Sessions Bool Bool where
  node := ⟨opened, fun t => .join t Demo.projectId.val⟩
  last _ _ := .leave

theorem start_ok : SessionStart start :=
  ⟨opened_ok, by decide, fun t => ⟨t, _, rfl⟩, fun _ _ => rfl⟩

abbrev verify : JsString → Option JsString := some

def play (as : List (SessionAction Bool Bool)) : Sessions Bool Bool :=
  as.foldl (Sessions.next verify) start

/-- One tab comes and goes while the other is joining. -/
def inTurn : List (SessionAction Bool Bool) :=
  [.run true, .run false, .run true, .run true, .run false,
    .event (.leave true Demo.projectId.val), .run false]

/-- The handler of the join is at its lookup when the event arrives. -/
def overtaken (e : NodeEvent Bool) : List (SessionAction Bool Bool) :=
  [.run false, .event e, .run false, .run false]

abbrev left : Sessions Bool Bool := play (overtaken (.leave false Demo.projectId.val))

abbrev gone : Sessions Bool Bool := play (overtaken (.disconnect false))

end JoinRaces.Samples

open Presence.Samples JoinRaces.Samples

theorem rooms_agree_in_turn :
    (play inTurn).node.store.rooms false = [room] ∧ (play inTurn).node.store.rooms true = [] ∧
      (play inTurn).RoomsAgree :=
  ⟨by decide, by decide,
    rooms_agree_of_unhurried verify start_ok (Along.guarded (by decide)) (by decide)⟩

/-- A tab that leaves while it is joining stays in the room, and one that goes away is counted for
ever. -/
theorem join_overtaken :
    SessionStart start ∧
      (Run (SessionStep verify) start (overtaken (.leave false Demo.projectId.val)) left ∧
        left.Finished ∧ room ∈ (left.node.store.socket false).joined ∧ ¬left.RoomsAgree) ∧
      Run (SessionStep verify) start (overtaken (.disconnect false)) gone ∧
        gone.Finished ∧ gone.node.store.sockets room Demo.userId.val = 1 ∧ ¬gone.RoomsAgree := by
  refine ⟨start_ok, ⟨Along.run (by decide), by decide, by decide, fun hagree => ?_⟩,
    Along.run (by decide), by decide, by decide, fun hagree => ?_⟩
  · obtain ⟨_, p, o, t, hlast, hroom⟩ := (hagree.joined false room).1 (by decide)
    have hp : p = Demo.projectId.val :=
      (isRoomOf_projectRoom (by decide) (by decide)).1 (hroom ▸ isRoomOf_self o p)
    have hleave : left.last false Demo.projectId.val = .leave := by decide
    rw [hp, hleave] at hlast
    cases hlast
  · obtain ⟨hconnected, _⟩ := (hagree.rooms false room).1 (by decide)
    exact absurd hconnected (by decide)

end PmSaas
