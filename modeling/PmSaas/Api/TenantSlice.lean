import PmSaas.Api.TenantWrites

/-!
# The methods of the tenant's routes in a slice of the world

`World.slice` is what an organization has of the world: its view of the database, its objects, the
broadcasts to its rooms and its notification jobs.  A method `Respects` the organization in two
worlds with equal slices if it answers the same in both and leaves equal slices again.  The rules
follow the program, as those of `Service.Audits` do: reads that agree on the view, checks, one write
that can be made in the view, and after it the side effects on behalf of the organization.
-/

namespace PmSaas

open Table

/-- What the names of an organization's rooms begin with. -/
def roomPrefix (organizationId : JsString) : JsString := js "org:" ++ organizationId ++ js ":"

/-- The broadcast goes to a room of the organization. -/
def Broadcast.ownedBy (organizationId : JsString) (b : Broadcast) : Bool :=
  (roomPrefix organizationId).isPrefixOf b.room

/-- What an organization has of the world; mail leaves it. -/
def World.slice (organizationId : JsString) (w : World) : World where
  db := w.db.tenantView organizationId
  objects := w.objects.filter (StoredObject.ownedBy organizationId)
  broadcasts := w.broadcasts.filter (Broadcast.ownedBy organizationId)
  queue := w.queue.filter (·.organizationId == organizationId)
  outbox := []

/-- Two worlds with equal slices, in which `g` draws new ids for audit rows. -/
structure Alike (organizationId : JsString) (g : Gen) (w w' : World) : Prop where
  slice : w.slice organizationId = w'.slice organizationId
  logs : ∀ k, ∀ a ∈ w.db.auditLogs, a.id ≠ (g.cuid k).val
  logs' : ∀ k, ∀ a ∈ w'.db.auditLogs, a.id ≠ (g.cuid k).val

/-- The method answers the same in both worlds and leaves equal slices. -/
def Service.Respects {α : Type} (organizationId : JsString) (s : Service α) (w w' : World) : Prop :=
  (s w).1 = (s w').1 ∧ (s w).2.slice organizationId = (s w').2.slice organizationId

section Effects

variable {organizationId : JsString} {w w' : World}

theorem World.view_eq (h : w.slice organizationId = w'.slice organizationId) :
    w.db.tenantView organizationId = w'.db.tenantView organizationId := congrArg World.db h

theorem World.slice_setDb {db db' : Db} (h : w.slice organizationId = w'.slice organizationId)
    (hdb : db.tenantView organizationId = db'.tenantView organizationId) :
    ({ w with db := db }).slice organizationId = ({ w' with db := db' }).slice organizationId := by
  simp only [World.slice, World.mk.injEq] at h ⊢
  exact ⟨hdb, h.2⟩

/-- A write that can be made in the view leaves equal slices, or fails in both worlds. -/
theorem World.exec_alike {α : Type} {f : Db → Except Exn (α × Db)}
    (h : w.slice organizationId = w'.slice organizationId)
    (hf : viewed organizationId (f w.db) = f (w.db.tenantView organizationId))
    (hf' : viewed organizationId (f w'.db) = f (w'.db.tenantView organizationId)) :
    (∃ e, f w.db = .error e ∧ f w'.db = .error e) ∨
    ∃ a db db', f w.db = .ok (a, db) ∧ f w'.db = .ok (a, db') ∧
      ({ w with db := db }).slice organizationId = ({ w' with db := db' }).slice organizationId := by
  have heq : viewed organizationId (f w.db) = viewed organizationId (f w'.db) := by
    rw [hf, hf', World.view_eq h]
  cases hw : f w.db with
  | error e =>
      cases hw' : f w'.db with
      | error e' =>
          rw [hw, hw'] at heq
          cases heq
          exact .inl ⟨e, rfl, rfl⟩
      | ok r =>
          rw [hw, hw'] at heq
          cases heq
  | ok r =>
      cases hw' : f w'.db with
      | error e =>
          rw [hw, hw'] at heq
          cases heq
      | ok r' =>
          rw [hw, hw'] at heq
          have hpair := Except.ok.inj heq
          simp only [Prod.mk.injEq] at hpair
          refine .inr ⟨r.1, r.2, r'.2, rfl, ?_, World.slice_setDb h hpair.2⟩
          rw [hpair.1]

theorem World.recorded_slice {entry : AuditEntry} {id : Cuid} (now : Date)
    (hentry : entry.organizationId = organizationId)
    (h : w.slice organizationId = w'.slice organizationId)
    (hfresh : ∀ a ∈ w.db.auditLogs, a.id ≠ id.val) (hfresh' : ∀ a ∈ w'.db.auditLogs, a.id ≠ id.val) :
    (w.recorded entry id now).slice organizationId =
      (w'.recorded entry id now).slice organizationId := by
  unfold World.recorded record
  rcases World.exec_alike h (Db.createAuditLog_viewed now hentry hfresh)
    (Db.createAuditLog_viewed now hentry hfresh') with ⟨e, he, he'⟩ | ⟨a, db, db', hok, hok', hs⟩
  · rw [he, he']
    exact h
  · rw [hok, hok']
    exact hs

theorem World.emitted_slice (h : w.slice organizationId = w'.slice organizationId)
    (projectId : JsString) (event : IssueEvent) :
    (w.emitted organizationId projectId event).slice organizationId =
      (w'.emitted organizationId projectId event).slice organizationId := by
  have hroom : Broadcast.ownedBy organizationId ⟨projectRoom organizationId projectId, event⟩ =
      true := by
    rw [Broadcast.ownedBy, List.isPrefixOf_iff_prefix]
    have hsplit : js ":project:" = js ":" ++ js "project:" := by decide
    refine ⟨js "project:" ++ projectId, ?_⟩
    simp only [roomPrefix, projectRoom, hsplit, List.append_assoc]
  have hslice : ∀ v : World, (v.emitted organizationId projectId event).slice organizationId =
      { v.slice organizationId with
        broadcasts := (v.slice organizationId).broadcasts ++
          [⟨projectRoom organizationId projectId, event⟩] } := by
    intro v
    simp only [World.slice, World.emitted, filter_insert_of hroom]
  rw [hslice, hslice, h]

theorem World.enqueued_slice (h : w.slice organizationId = w'.slice organizationId)
    {job : NotificationJob} (hjob : job.organizationId = organizationId) :
    (w.enqueued job).slice organizationId = (w'.enqueued job).slice organizationId := by
  unfold World.enqueued
  split_ifs
  · exact h
  · have hown : (job.organizationId == organizationId) = true := beq_iff_eq.2 hjob
    have hqueue : ∀ v : World, (v.queue ++ [job]).filter (·.organizationId == organizationId) =
        v.queue.filter (·.organizationId == organizationId) ++ [job] := fun v => filter_insert_of hown
    simp only [World.slice, World.mk.injEq, hqueue] at h ⊢
    exact ⟨h.1, h.2.1, h.2.2.1, by rw [h.2.2.2.1], trivial⟩

theorem World.deleteObject_slice (h : w.slice organizationId = w'.slice organizationId)
    (key : JsString) : (StorageService.deleteObject key w).slice organizationId =
      (StorageService.deleteObject key w').slice organizationId := by
  have hslice : ∀ v : World, (StorageService.deleteObject key v).slice organizationId =
      StorageService.deleteObject key (v.slice organizationId) := by
    intro v
    simp only [World.slice, StorageService.deleteObject, filter_deleteWhere_comm]
  rw [hslice, hslice, h]

end Effects

/-! ### The rules -/

namespace Service.Respects

variable {α β : Type} {organizationId : JsString} {g : Gen} {w w' : World}

theorem of_eq {s s' : Service α} (heq : s w = s' w) (heq' : s w' = s' w')
    (h : s'.Respects organizationId w w') : s.Respects organizationId w w' := by
  rw [Respects, heq, heq']
  exact h

theorem done (h : w.slice organizationId = w'.slice organizationId) (a : α) :
    (pure a : Service α).Respects organizationId w w' := ⟨rfl, h⟩

theorem query {f : Db → α} {k : α → Service β} (hf : f w.db = f w'.db)
    (h : (k (f w.db)).Respects organizationId w w') :
    (Service.query f >>= k).Respects organizationId w w' := by
  rw [Respects, query_bind, query_bind, ← hf]
  exact h

theorem orThrow {o : Option α} {e : Exn} {k : α → Service β}
    (hslice : w.slice organizationId = w'.slice organizationId)
    (h : ∀ a, o = some a → (k a).Respects organizationId w w') :
    (Service.orThrow o e >>= k).Respects organizationId w w' := by
  cases o with
  | none => exact ⟨rfl, hslice⟩
  | some a => exact h a rfl

theorem throwIf {c : Bool} {e : Exn} {k : Unit → Service β}
    (hslice : w.slice organizationId = w'.slice organizationId)
    (h : c = false → (k ()).Respects organizationId w w') :
    (Service.throwIf c e >>= k).Respects organizationId w w' := by
  cases c with
  | true => exact ⟨rfl, hslice⟩
  | false => exact h rfl

/-- A computation that may throw. -/
theorem compute {x : Except Exn α} {k : α → Service β}
    (hslice : w.slice organizationId = w'.slice organizationId)
    (h : ∀ a, x = .ok a → (k a).Respects organizationId w w') :
    (Service.exec (fun db => x.map fun a => (a, db)) >>= k).Respects organizationId w w' := by
  cases hx : x with
  | error e => exact ⟨rfl, hslice⟩
  | ok a => exact h a hx

/-- The write of a method, to another table than the audit trail. -/
theorem write {f : Db → Except Exn (α × Db)} {k : α → Service β}
    (h : Alike organizationId g w w')
    (hf : viewed organizationId (f w.db) = f (w.db.tenantView organizationId))
    (hf' : viewed organizationId (f w'.db) = f (w'.db.tenantView organizationId))
    (hlogs : ∀ {db a db'}, f db = .ok (a, db') → db'.auditLogs = db.auditLogs)
    (hk : ∀ a v v', Alike organizationId g v v' → (k a).Respects organizationId v v') :
    (Service.exec f >>= k).Respects organizationId w w' := by
  rcases World.exec_alike h.slice hf hf' with ⟨e, he, he'⟩ | ⟨a, db, db', hok, hok', hslice⟩
  · rw [Respects, exec_bind, exec_bind, he, he']
    exact ⟨rfl, h.slice⟩
  · rw [Respects, exec_bind, exec_bind, hok, hok']
    refine hk a _ _ ⟨hslice, fun k => ?_, fun k => ?_⟩
    · rw [hlogs hok]
      exact h.logs k
    · rw [hlogs hok']
      exact h.logs' k

theorem record {entry : AuditEntry} {f : Unit → Service α} (k : ℕ)
    (hentry : entry.organizationId = organizationId) (h : Alike organizationId g w w')
    (hf : ∀ v v', v.slice organizationId = v'.slice organizationId →
      (f ()).Respects organizationId v v') :
    (PmSaas.record entry (g.cuid k) g.now >>= f).Respects organizationId w w' := by
  rw [Respects, record_bind, record_bind]
  exact hf _ _ (World.recorded_slice g.now hentry h.slice (h.logs k) (h.logs' k))

/-- A `record` at the end. -/
theorem last {entry : AuditEntry} (k : ℕ) (hentry : entry.organizationId = organizationId)
    (h : Alike organizationId g w w') :
    (PmSaas.record entry (g.cuid k) g.now).Respects organizationId w w' := by
  rw [Respects, record_apply, record_apply]
  exact ⟨rfl, World.recorded_slice g.now hentry h.slice (h.logs k) (h.logs' k)⟩

theorem emit {projectId : JsString} {event : IssueEvent} {f : Unit → Service α}
    (h : w.slice organizationId = w'.slice organizationId)
    (hf : ∀ v v', v.slice organizationId = v'.slice organizationId →
      (f ()).Respects organizationId v v') :
    (emitToProject organizationId projectId event >>= f).Respects organizationId w w' := by
  rw [Respects, emit_bind, emit_bind]
  exact hf _ _ (World.emitted_slice h projectId event)

theorem enqueue {job : NotificationJob} {a : α} (hjob : job.organizationId = organizationId)
    (h : w.slice organizationId = w'.slice organizationId) :
    (PmSaas.enqueue job >>= fun _ => pure a).Respects organizationId w w' :=
  ⟨rfl, World.enqueued_slice h hjob⟩

theorem mail {msg : MailMessage} {f : Unit → Service α} (h : Alike organizationId g w w')
    (hf : ∀ v v', Alike organizationId g v v' → (f ()).Respects organizationId v v') :
    (sendMail msg >>= f).Respects organizationId w w' :=
  hf _ _ ⟨h.slice, h.logs, h.logs'⟩

theorem deleteObject {up : Bool} {key : JsString} {f : Unit → Service α}
    (h : Alike organizationId g w w')
    (hf : ∀ v v', Alike organizationId g v v' → (f ()).Respects organizationId v v') :
    (StorageService.delete up key >>= f).Respects organizationId w w' := by
  rw [Respects, StorageService.delete_bind, StorageService.delete_bind]
  cases up with
  | false => exact hf _ _ h
  | true => exact hf _ _ ⟨World.deleteObject_slice h.slice key, h.logs, h.logs'⟩

end Service.Respects

end PmSaas
