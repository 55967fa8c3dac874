import PmSaas.Common.ExceptionFilter

/-!
# Checks come before writes

A method makes its checks first, then its write, and what follows the write does not refuse any
more.  `Service.Clean` is what a caller has of that order: after an error of the kind nothing has
changed.  `Service.Spares` is what the order asks of the part behind the write.  The kind is free:
all errors for a method with one write, those of an `HttpException` for one with several.
-/

namespace PmSaas

namespace Service

variable {α β : Type} {kind : Exn → Prop} {w : World}

/-- An error of the kind leaves the world as it was. -/
def Clean (kind : Exn → Prop) (s : Service α) (w : World) : Prop :=
  ∀ e, (s w).1 = .error e → kind e → (s w).2 = w

/-- The method ends in no error of the kind. -/
def Spares (kind : Exn → Prop) (s : Service α) (w : World) : Prop :=
  ∀ e, (s w).1 = .error e → ¬kind e

namespace Spares

theorem pure (a : α) : (Pure.pure a : Service α).Spares kind w := fun _ h => by cases h

theorem of_ok {s : Service α} {a : α} (h : (s w).1 = .ok a) : s.Spares kind w := by
  intro e he
  rw [h] at he
  cases he

theorem record {entry : AuditEntry} {id : Cuid} {now : Date} {k : Unit → Service β}
    (h : (k ()).Spares kind (w.recorded entry id now)) :
    (record entry id now >>= k).Spares kind w := by
  intro e he
  rw [record_bind] at he
  exact h e he

theorem exec {f : Db → Except Exn (α × Db)} {k : α → Service β}
    (herror : ∀ e, f w.db = .error e → ¬kind e)
    (h : ∀ a db, f w.db = .ok (a, db) → (k a).Spares kind { w with db := db }) :
    (Service.exec f >>= k).Spares kind w := by
  intro e he
  rw [exec_bind] at he
  cases hf : f w.db with
  | error e' =>
      rw [hf] at he
      cases he
      exact herror e hf
  | ok r =>
      rw [hf] at he
      exact h r.1 r.2 hf e he

theorem orThrow {o : Option α} {e : Exn} {k : α → Service β} (hnone : o = none → ¬kind e)
    (h : ∀ a, o = some a → (k a).Spares kind w) : (Service.orThrow o e >>= k).Spares kind w := by
  cases o with
  | none =>
      intro e' he'
      cases he'
      exact hnone rfl
  | some a => exact h a rfl

theorem bind {s : Service α} {k : α → Service β} (hs : s.Spares kind w)
    (h : ∀ a w', s w = (.ok a, w') → (k a).Spares kind w') : (s >>= k).Spares kind w := by
  intro e he
  rw [bind_apply] at he
  rcases hrun : s w with ⟨e' | a, w'⟩
  · rw [hrun] at he
    cases he
    exact hs e (by rw [hrun])
  · rw [hrun] at he
    exact h a w' hrun e he

end Spares

namespace Clean

theorem of_world {s : Service α} (h : (s w).2 = w) : s.Clean kind w := fun _ _ _ => h

theorem of_eq {s s' : Service α} (heq : s w = s' w) (h : s'.Clean kind w) : s.Clean kind w := by
  rw [Clean, heq]
  exact h

theorem query {f : Db → α} {k : α → Service β} (h : (k (f w.db)).Clean kind w) :
    (Service.query f >>= k).Clean kind w := h

theorem orThrow {o : Option α} {e : Exn} {k : α → Service β}
    (h : ∀ a, o = some a → (k a).Clean kind w) : (Service.orThrow o e >>= k).Clean kind w := by
  cases o with
  | none => exact .of_world rfl
  | some a => exact h a rfl

theorem throwIf {c : Bool} {e : Exn} {k : Unit → Service β}
    (h : c = false → (k ()).Clean kind w) : (Service.throwIf c e >>= k).Clean kind w := by
  cases c with
  | true => exact .of_world rfl
  | false => exact h rfl

/-- A computation that may throw. -/
theorem compute {x : Except Exn α} {k : α → Service β} (h : ∀ a, (k a).Clean kind w) :
    (Service.exec (fun db => x.map fun a => (a, db)) >>= k).Clean kind w := by
  cases x with
  | error e => exact .of_world rfl
  | ok a => exact h a

/-- The write of a method, which fails as a whole; what follows no longer refuses. -/
theorem exec {f : Db → Except Exn (α × Db)} {k : α → Service β}
    (h : ∀ a db, f w.db = .ok (a, db) → (k a).Spares kind { w with db := db }) :
    (Service.exec f >>= k).Clean kind w := by
  intro e he hkind
  rw [exec_bind] at he ⊢
  cases hf : f w.db with
  | error e' => rfl
  | ok r =>
      rw [hf] at he
      exact absurd hkind (h r.1 r.2 hf e he)

/-- The answer's value does not matter. -/
theorem map {s : Service α} (h : s.Clean kind w) (f : α → β) :
    (s >>= fun a => Pure.pure (f a)).Clean kind w := by
  intro e he hkind
  rw [bind_apply] at he ⊢
  rcases hrun : s w with ⟨e' | a, w'⟩
  · rw [hrun] at he
    cases he
    have hworld := h e (by rw [hrun]) hkind
    rw [hrun] at hworld
    exact hworld
  · rw [hrun] at he
    cases he

end Clean

end Service

end PmSaas
