import PmSaas.Common.Service

/-!
# `sentry.filter.ts`: what an exception becomes

The filter lets an `HttpException` answer for itself (`Exn.Refusal`) and turns every other exception
into a bare 500.  `Service.Settles` is the shape of a method that either returns or has done
nothing: it says of a throwing call that the world is as before, and in which case the database has
thrown.  The rules follow the program, as those for the audit do.
-/

namespace PmSaas

/-- `getStatus()` and the message of `getResponse()`, of an `HttpException`. -/
@[simp] def Exn.httpException : Exn → Option (ℕ × JsString)
  | .badRequest message => some (400, message)
  | .unauthorized message => some (401, message)
  | .forbidden message => some (403, message)
  | .notFound message => some (404, message)
  | .conflict message => some (409, message)
  | .serviceUnavailable message => some (503, message)
  | .prisma _ => none
  | .error _ => none

/-- What the filter does with an exception: the reply, and whether it goes to Sentry. -/
structure Reply where
  status : ℕ
  message : JsString
  captured : Bool
  deriving DecidableEq, Repr

/-- `catch` of `SentryExceptionFilter`. -/
def SentryExceptionFilter.onException (exception : Exn) : Reply :=
  match exception.httpException with
  | some (status, message) => ⟨status, message, decide (500 ≤ status)⟩
  | none => ⟨500, js "Internal server error", true⟩

/-- The exception answers for itself. -/
def Exn.Refusal (e : Exn) : Prop := (SentryExceptionFilter.onException e).status ≠ 500

theorem Exn.not_refusal_prisma (code : PrismaError) : ¬(Exn.prisma code).Refusal := fun h => h rfl

/-- The database has refused a write, or has not found the row of an update. -/
@[simp] def Exn.Violation : Exn → Prop
  | .prisma _ => True
  | _ => False

theorem Exn.violation_iff {e : Exn} : e.Violation ↔ ∃ code, e = .prisma code := by
  cases e with
  | prisma code => exact iff_of_true trivial ⟨code, rfl⟩
  | _ => exact iff_of_false id (by rintro ⟨_, ⟨⟩⟩)

namespace Service

variable {α β : Type} {w : World} {faulty : Prop}

def Returns (s : Service α) (w : World) : Prop := ∃ a, (s w).1 = .ok a

/-- The method returns, or throws and leaves the world as it was; the database is what throws
exactly in the given case. -/
def Settles (faulty : Prop) (s : Service α) (w : World) : Prop :=
  (s.Returns w ∧ ¬faulty) ∨ ∃ e, s w = (.error e, w) ∧ (e.Violation ↔ faulty)

theorem Returns.record {entry : AuditEntry} {id : Cuid} {now : Date} {k : Unit → Service β}
    (h : (k ()).Returns (w.recorded entry id now)) :
    (record entry id now >>= k).Returns w := by
  rw [Returns, record_bind]
  exact h

namespace Settles

theorem of_eq {s s' : Service α} (heq : s w = s' w) (h : s'.Settles faulty w) :
    s.Settles faulty w := by
  rw [Settles, Returns, heq]
  exact h

theorem congr {s : Service α} {faulty' : Prop} (hiff : faulty ↔ faulty') (h : s.Settles faulty w) :
    s.Settles faulty' w := by
  rwa [← hiff]

theorem returns {s : Service α} (h : s.Returns w) : s.Settles False w := .inl ⟨h, id⟩

/-- A check of the method fails. -/
theorem refuse {s : Service α} {e : Exn} (h : s w = (.error e, w)) (he : ¬e.Violation) :
    s.Settles False w :=
  .inr ⟨e, h, iff_of_false he id⟩

theorem query {f : Db → α} {k : α → Service β} (h : (k (f w.db)).Settles faulty w) :
    (Service.query f >>= k).Settles faulty w := h

theorem orThrow {o : Option α} {e : Exn} {k : α → Service β} (he : ¬e.Violation)
    (hnone : o = none → ¬faulty) (h : ∀ a, o = some a → (k a).Settles faulty w) :
    (Service.orThrow o e >>= k).Settles faulty w := by
  cases o with
  | none => exact .inr ⟨e, rfl, iff_of_false he (hnone rfl)⟩
  | some a => exact h a rfl

theorem throwIf {c : Bool} {e : Exn} {k : Unit → Service β} (he : ¬e.Violation)
    (htrue : c = true → ¬faulty) (h : c = false → (k ()).Settles faulty w) :
    (Service.throwIf c e >>= k).Settles faulty w := by
  cases c with
  | true => exact .inr ⟨e, rfl, iff_of_false he (htrue rfl)⟩
  | false => exact h rfl

/-- A computation that may throw. -/
theorem compute {x : Except Exn α} {k : α → Service β}
    (herror : ∀ e, x = .error e → ¬e.Violation ∧ ¬faulty)
    (h : ∀ a, x = .ok a → (k a).Settles faulty w) :
    (Service.exec (fun db => x.map fun a => (a, db)) >>= k).Settles faulty w := by
  cases hx : x with
  | error e => exact .inr ⟨e, rfl, iff_of_false (herror e hx).1 (herror e hx).2⟩
  | ok a => exact h a hx

/-- The write of a method, which goes through unless the case is given: what follows may no longer
throw. -/
theorem exec {f : Db → Except Exn (α × Db)} {k : α → Service β}
    (hfaulty : faulty → ∃ code, f w.db = .error (.prisma code))
    (hsound : ¬faulty → ∃ a db, f w.db = .ok (a, db) ∧ (k a).Returns { w with db := db }) :
    (Service.exec f >>= k).Settles faulty w := by
  by_cases h : faulty
  · obtain ⟨code, hf⟩ := hfaulty h
    exact .inr ⟨.prisma code, by rw [exec_bind, hf], iff_of_true trivial h⟩
  · obtain ⟨a, db, hf, hreturns⟩ := hsound h
    refine .inl ⟨?_, h⟩
    rw [Returns, exec_bind, hf]
    exact hreturns

/-- The answer's value does not matter. -/
theorem map {s : Service α} (h : s.Settles faulty w) (f : α → β) :
    (s >>= fun a => pure (f a)).Settles faulty w := by
  rw [Settles, Returns, bind_apply]
  rcases h with ⟨⟨a, hok⟩, hnot⟩ | ⟨e, he, hiff⟩
  · have hrun : s w = (.ok a, (s w).2) := Prod.ext hok rfl
    rw [hrun]
    exact .inl ⟨⟨f a, rfl⟩, hnot⟩
  · rw [he]
    exact .inr ⟨e, rfl, hiff⟩

end Settles

end Service

end PmSaas
