import PmSaas.Common.Service

/-!
# `audit.service.ts`: methods that record once

Every mutating service action is supposed to call `record`.  `Service.Audits` is the shape of one
that does: it throws and leaves the world as it was, or it writes, records one row in the name of
its organization and its actor, and returns.  The rules for `Audits` follow the program, so that the
proof for a method reads like the method: reads and checks on the way (`query`, `orThrow`,
`throwIf`, `compute`), the write (`write`), and after it only steps that cannot throw
(`Records.silent`, `Records.record`).
-/

namespace PmSaas

/-- An audit row of the organization and the actor can be inserted under the ids of `g`. -/
structure Db.Auditable (g : Gen) (organizationId : JsString) (actorId : Option JsString) (db : Db) :
    Prop where
  fresh : ∀ k, ∀ a ∈ db.auditLogs, a.id ≠ (g.cuid k).val
  organization : ∃ o ∈ db.organizations, o.id = organizationId
  actor : ∀ id ∈ actorId, ∃ u ∈ db.users, u.id = id

/-- The tables an audit row depends on. -/
def Db.ledger (db : Db) := (db.users, db.organizations, db.auditLogs)

/-- One row more in the trail, of the organization and in the name of the actor. -/
def Db.Logged (organizationId : JsString) (actorId : Option JsString) (db db' : Db) : Prop :=
  ∃ log, db'.auditLogs = db.auditLogs ++ [log] ∧ log.organizationId = organizationId ∧
    log.actorId = actorId

section Rules

variable {α β : Type} {g : Gen} {organizationId : JsString} {actorId : Option JsString} {w : World}
  {db db' : Db}

theorem Db.Auditable.congr (h : db.Auditable g organizationId actorId)
    (heq : db'.ledger = db.ledger) : db'.Auditable g organizationId actorId := by
  simp only [Db.ledger, Prod.mk.injEq] at heq
  obtain ⟨hu, ho, ha⟩ := heq
  constructor <;> simp only [hu, ho, ha]
  · exact h.fresh
  · exact h.organization
  · exact h.actor

/-- The row of an entry. -/
def AuditEntry.row (entry : AuditEntry) (id : JsString) (now : Date) : AuditLog :=
  ⟨id, entry.organizationId, entry.actorId, entry.action, entry.entityType, entry.entityId,
    entry.metadata, now⟩

/-- What `record` inserts. -/
theorem World.recorded_row {entry : AuditEntry} (k : ℕ)
    (h : w.db.Auditable g entry.organizationId entry.actorId) :
    (w.recorded entry (g.cuid k) g.now).db =
      { w.db with auditLogs := w.db.auditLogs ++ [entry.row (g.cuid k).val g.now] } := by
  have hfresh : ¬(w.db.auditLogs.any (·.id == (g.cuid k).val) = true) := by
    simpa using h.fresh k
  have horg : ¬((!w.db.organizations.any (·.id == entry.organizationId)) = true) := by
    simpa using h.organization
  have hactor : ¬(entry.actorId.any (fun a => !w.db.users.any (·.id == a)) = true) := by
    cases hid : entry.actorId with
    | none => simp
    | some id => simpa using h.actor id hid
  rw [World.recorded, record, Db.createAuditLog, if_neg hfresh, if_neg horg, if_neg hactor]
  rfl

/-- **`record` records**, if no key stands in its way. -/
theorem World.recorded_db {entry : AuditEntry} (k : ℕ)
    (h : w.db.Auditable g entry.organizationId entry.actorId) :
    w.db.Logged entry.organizationId entry.actorId (w.recorded entry (g.cuid k) g.now).db :=
  ⟨entry.row (g.cuid k).val g.now, by rw [w.recorded_row k h], rfl, rfl⟩

namespace Service

/-- The method returns without touching the database. -/
def Silent (s : Service α) (w : World) : Prop := ∃ a, (s w).1 = .ok a ∧ (s w).2.db = w.db

/-- The method records one row and returns. -/
def Records (organizationId : JsString) (actorId : Option JsString) (s : Service α) (w : World) :
    Prop :=
  (∃ a, (s w).1 = .ok a) ∧ w.db.Logged organizationId actorId (s w).2.db

/-- The method throws and leaves the world as it was, or it records one row and returns. -/
def Audits (organizationId : JsString) (actorId : Option JsString) (s : Service α) (w : World) :
    Prop :=
  (∃ e, s w = (.error e, w)) ∨ s.Records organizationId actorId w

theorem Records.record {entry : AuditEntry} {f : Unit → Service α} (k : ℕ)
    (h : w.db.Auditable g entry.organizationId entry.actorId) (hf : ∀ w', (f ()).Silent w') :
    (record entry (g.cuid k) g.now >>= f).Records entry.organizationId entry.actorId w := by
  obtain ⟨a, hok, hdb⟩ := hf (w.recorded entry (g.cuid k) g.now)
  rw [Records, record_bind, hdb]
  exact ⟨⟨a, hok⟩, w.recorded_db k h⟩

/-- A silent step on the way to the record. -/
theorem Records.silent {s : Service α} {k : α → Service β} (hs : s.Silent w)
    (h : ∀ a w', (s w).1 = .ok a → w'.db = w.db → (k a).Records organizationId actorId w') :
    (s >>= k).Records organizationId actorId w := by
  obtain ⟨a, hok, hdb⟩ := hs
  have hrun : s w = (.ok a, (s w).2) := Prod.ext hok rfl
  obtain ⟨hreturns, log, hlog, hentry⟩ := h a (s w).2 hok hdb
  rw [hdb] at hlog
  rw [Records, bind_apply, hrun]
  exact ⟨hreturns, log, hlog, hentry⟩

/-- What follows the record returns and writes no audit row. -/
theorem Records.andThen {s : Service α} {k : α → Service β} (h : s.Records organizationId actorId w)
    (hk : ∀ a, ∃ b, (k a (s w).2).1 = .ok b ∧
      (k a (s w).2).2.db.auditLogs = (s w).2.db.auditLogs) :
    (s >>= k).Records organizationId actorId w := by
  obtain ⟨⟨a, hok⟩, log, hlog, hentry⟩ := h
  obtain ⟨b, hreturns, hlogs⟩ := hk a
  have hrun : s w = (.ok a, (s w).2) := Prod.ext hok rfl
  rw [Records, bind_apply, hrun]
  exact ⟨⟨b, hreturns⟩, log, hlogs.trans hlog, hentry⟩

/-- A `record` at the end. -/
theorem Records.last {entry : AuditEntry} (k : ℕ)
    (h : w.db.Auditable g entry.organizationId entry.actorId) :
    (PmSaas.record entry (g.cuid k) g.now).Records entry.organizationId entry.actorId w := by
  rw [Records, record_apply]
  exact ⟨⟨(), rfl⟩, w.recorded_db k h⟩

namespace Audits

theorem of_eq {s s' : Service α} (heq : s w = s' w) (h : s'.Audits organizationId actorId w) :
    s.Audits organizationId actorId w := by
  rw [Audits, Records, heq]
  exact h

theorem query {f : Db → α} {k : α → Service β} (h : (k (f w.db)).Audits organizationId actorId w) :
    (Service.query f >>= k).Audits organizationId actorId w := h

theorem orThrow {o : Option α} {e : Exn} {k : α → Service β}
    (h : ∀ a, o = some a → (k a).Audits organizationId actorId w) :
    (Service.orThrow o e >>= k).Audits organizationId actorId w := by
  cases o with
  | none => exact .inl ⟨e, rfl⟩
  | some a => exact h a rfl

theorem throwIf {c : Bool} {e : Exn} {k : Unit → Service β}
    (h : c = false → (k ()).Audits organizationId actorId w) :
    (Service.throwIf c e >>= k).Audits organizationId actorId w := by
  cases c with
  | true => exact .inl ⟨e, rfl⟩
  | false => exact h rfl

/-- A computation that may throw. -/
theorem compute {x : Except Exn α} {k : α → Service β}
    (h : ∀ a, x = .ok a → (k a).Audits organizationId actorId w) :
    (Service.exec (fun db => x.map fun a => (a, db)) >>= k).Audits organizationId actorId w := by
  cases hx : x with
  | error e => exact .inl ⟨e, rfl⟩
  | ok a => exact h a hx

/-- The write of a method: what follows may no longer throw. -/
theorem exec {f : Db → Except Exn (α × Db)} {k : α → Service β}
    (hlogs : ∀ a db, f w.db = .ok (a, db) → db.auditLogs = w.db.auditLogs)
    (h : ∀ a db, f w.db = .ok (a, db) →
      (k a).Records organizationId actorId { w with db := db }) :
    (Service.exec f >>= k).Audits organizationId actorId w := by
  cases hf : f w.db with
  | error e => exact .inl ⟨e, by rw [exec_bind, hf]⟩
  | ok r =>
      obtain ⟨a, db⟩ := r
      obtain ⟨hok, log, hlog, hentry⟩ := h a db hf
      rw [Audits, Records, exec_bind, hf]
      exact .inr ⟨hok, log, by rw [hlog, hlogs a db hf], hentry⟩

/-- A write to other tables than the audit row depends on. -/
theorem write {f : Db → Except Exn (α × Db)} {k : α → Service β}
    (hready : w.db.Auditable g organizationId actorId)
    (hledger : ∀ a db, f w.db = .ok (a, db) → db.ledger = w.db.ledger)
    (h : ∀ a db, db.Auditable g organizationId actorId →
      (k a).Records organizationId actorId { w with db := db }) :
    (Service.exec f >>= k).Audits organizationId actorId w :=
  .exec (fun a db hf => congrArg (fun l => l.2.2) (hledger a db hf))
    fun a db hf => h a db (hready.congr (hledger a db hf))

end Audits

end Service

end Rules

end PmSaas
