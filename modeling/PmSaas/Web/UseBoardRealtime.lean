import PmSaas.Lib.Replay
import PmSaas.Lib.Table
import PmSaas.Types.Realtime

/-!
# `use-board-realtime.ts`: patching the issue cache

The board keeps the list of its issues in the query cache and patches it with every issue event.
For one issue a patch is a change of a record (`patch_card_self`), so the results about replayed
changes apply to it issue by issue.
-/

namespace PmSaas

open Replay Table

/-- `patch` with the handler of the event. -/
def patch (event : IssueEvent) (l : List IssueView) : List IssueView :=
  match event with
  | .created issue => if l.any (·.id == issue.id) then l else l ++ [issue]
  | .updated issue => updateWhere (·.id == issue.id) (fun _ => issue) l
  | .moved id status rank =>
      updateWhere (·.id == id) (fun i => { i with status := status, rank := rank }) l
  | .deleted id => l.filter (·.id != id)

/-! ### One issue of the cache -/

/-- What the board shows of an issue: `issue:moved` does not carry `updatedAt`. -/
def IssueView.shown (i : IssueView) : IssueView := { i with updatedAt := 0 }

/-- The place of a card on the board. -/
abbrev Place := IssueStatus × JsString

def setPlace (p : Place) (i : IssueView) : IssueView := { i with status := p.1, rank := p.2 }

theorem setPlace_overwrites : Overwrites setPlace :=
  ⟨fun _ _ => rfl, fun m _ a b h => (show setPlace m a = setPlace m b from h)⟩

/-- The card of an issue in a list of issues. -/
def card (l : List IssueView) (id : JsString) : Option IssueView :=
  (l.find? (·.id == id)).map IssueView.shown

/-- The change an event makes to its issue. -/
def IssueEvent.change : IssueEvent → Change IssueView Place
  | .created issue => .insert issue.shown
  | .updated issue => .replace issue.shown
  | .moved _ status rank => .modify (status, rank)
  | .deleted _ => .delete

/-! ### What a patch does to one issue -/

section Patches

variable (v : IssueView → IssueView)

/-- The change an event makes to its issue, seen through `v`. -/
def IssueEvent.changeOf : IssueEvent → Change IssueView Place
  | .created issue => .insert (v issue)
  | .updated issue => .replace (v issue)
  | .moved _ status rank => .modify (status, rank)
  | .deleted _ => .delete

/-- An issue in a list of issues, seen through `v`. -/
def rowOf (l : List IssueView) (id : JsString) : Option IssueView := (l.find? (·.id == id)).map v

variable {v}

theorem rowOf_updateWhere_self {id : JsString} {f : IssueView → IssueView} {l : List IssueView}
    (hf : ∀ i ∈ l, i.id = id → (f i).id = id) :
    rowOf v (updateWhere (·.id == id) f l) id = (l.find? (·.id == id)).map fun i => v (f i) := by
  have hkeep : ∀ i ∈ l, (i.id == id) = true → ((f i).id == id) = (i.id == id) := by
    intro i hi hid
    rw [hf i hi (beq_iff_eq.1 hid), beq_iff_eq.1 hid]
  rw [rowOf, find?_updateWhere hkeep]
  cases hfind : l.find? (·.id == id) with
  | none => rfl
  | some i =>
      have hid : (i.id == id) = true := List.find?_some (p := fun i : IssueView => i.id == id) hfind
      simp only [Option.map_some, if_pos hid]

theorem rowOf_updateWhere_of_ne {id k : JsString} {f : IssueView → IssueView} {l : List IssueView}
    (hf : ∀ i ∈ l, i.id = id → (f i).id = id) (hne : id ≠ k) :
    rowOf v (updateWhere (·.id == id) f l) k = rowOf v l k := by
  have hkeep : ∀ i ∈ l, (i.id == id) = true → ((f i).id == k) = (i.id == k) := by
    intro i hi hid
    rw [hf i hi (beq_iff_eq.1 hid), beq_iff_eq.1 hid]
  rw [rowOf, find?_updateWhere hkeep, rowOf]
  cases hfind : l.find? (·.id == k) with
  | none => rfl
  | some i =>
      have hid : i.id = k := by simpa using List.find?_some hfind
      have hno : ¬(i.id == id) = true := by simpa [hid] using fun h : k = id => hne h.symm
      simp only [Option.map_some, if_neg hno]

/-- A patch changes its issue as the event says. -/
theorem patch_rowOf_self (hv : ∀ p i, v (setPlace p i) = setPlace p (v i)) (event : IssueEvent)
    (l : List IssueView) :
    rowOf v (patch event l) event.issueId =
      (event.changeOf v).apply setPlace (rowOf v l event.issueId) := by
  cases event with
  | created issue =>
      show rowOf v (if l.any (·.id == issue.id) then l else l ++ [issue]) issue.id =
        (Change.insert (v issue)).apply setPlace (rowOf v l issue.id)
      cases hfind : l.find? (·.id == issue.id) with
      | none =>
          have hany : ¬l.any (·.id == issue.id) = true := by
            intro hany
            obtain ⟨i, hi, hid⟩ := List.any_eq_true.1 hany
            exact List.find?_eq_none.1 hfind i hi hid
          rw [if_neg hany, rowOf, rowOf, List.find?_append, hfind]
          simp [Change.apply]
      | some i =>
          have hany : l.any (·.id == issue.id) = true :=
            List.any_eq_true.2 ⟨i, List.mem_of_find?_eq_some hfind,
              List.find?_some (p := fun i : IssueView => i.id == issue.id) hfind⟩
          rw [if_pos hany, rowOf, hfind]
          rfl
  | updated issue =>
      refine (rowOf_updateWhere_self fun _ _ _ => rfl).trans ?_
      show _ = (Change.replace (v issue)).apply setPlace (rowOf v l issue.id)
      rw [rowOf]
      cases l.find? (·.id == issue.id) <;> rfl
  | moved id status rank =>
      refine (rowOf_updateWhere_self (f := setPlace (status, rank)) fun _ _ hid => hid).trans ?_
      show _ = (Change.modify (status, rank)).apply setPlace (rowOf v l id)
      rw [rowOf]
      cases l.find? (·.id == id) with
      | none => rfl
      | some i => exact congrArg some (hv (status, rank) i)
  | deleted id =>
      have hnone : (l.filter (·.id != id)).find? (·.id == id) = none := by
        rw [List.find?_eq_none]
        intro i hi
        simpa using (List.mem_filter.1 hi).2
      show rowOf v (l.filter (·.id != id)) id = none
      rw [rowOf, hnone]
      rfl

/-- A patch leaves the other issues. -/
theorem patch_rowOf_of_ne {event : IssueEvent} {k : JsString} (h : event.issueId ≠ k)
    (l : List IssueView) : rowOf v (patch event l) k = rowOf v l k := by
  cases event with
  | created issue =>
      rw [patch]
      split
      · rfl
      · have hlast : [issue].find? (·.id == k) = none := by
          simpa using fun hid : issue.id = k => h hid
        rw [rowOf, rowOf, List.find?_append, hlast, Option.or_none]
  | updated issue => exact rowOf_updateWhere_of_ne (fun _ _ _ => rfl) h
  | moved id status rank =>
      exact rowOf_updateWhere_of_ne (f := setPlace (status, rank)) (fun _ _ hid => hid) h
  | deleted id =>
      rw [patch, rowOf, rowOf, find?_view]
      intro i _ hi
      rw [beq_iff_eq.1 hi]
      simpa using fun hk : k = id => h hk.symm

end Patches

/-- A patch changes the card of its issue. -/
theorem patch_card_self (event : IssueEvent) (l : List IssueView) :
    card (patch event l) event.issueId =
      event.change.apply setPlace (card l event.issueId) := by
  have hchange : event.change = event.changeOf IssueView.shown := by cases event <;> rfl
  rw [hchange]
  exact patch_rowOf_self (fun _ _ => rfl) event l

/-- A patch leaves the cards of other issues. -/
theorem patch_card_of_ne {event : IssueEvent} {k : JsString} (h : event.issueId ≠ k)
    (l : List IssueView) : card (patch event l) k = card l k :=
  patch_rowOf_of_ne h l

/-- Patching keeps the ids distinct. -/
theorem patch_uniqueKey (event : IssueEvent) {l : List IssueView} (h : UniqueKey IssueView.id l) :
    UniqueKey IssueView.id (patch event l) := by
  cases event with
  | created issue =>
      rw [patch]
      split
      · exact h
      · rename_i hany
        exact h.insert fun i hi hid => hany (List.any_eq_true.2 ⟨i, hi, beq_iff_eq.2 hid⟩)
  | updated issue => exact h.update fun i _ hid => (beq_iff_eq.1 hid).symm
  | moved id status rank => exact h.update fun _ _ _ => rfl
  | deleted id => exact h.sublist (List.filter_sublist.map IssueView.id)

/-- Lists with the same cards show the same issues. -/
theorem shown_perm_of_card_eq {l m : List IssueView} (hl : UniqueKey IssueView.id l)
    (hm : UniqueKey IssueView.id m) (h : ∀ k, card l k = card m k) :
    (l.map IssueView.shown).Perm (m.map IssueView.shown) := by
  have hkey : ∀ n : List IssueView, UniqueKey IssueView.id n →
      UniqueKey IssueView.id (n.map IssueView.shown) := by
    intro n hn
    rw [UniqueKey, List.map_map]
    exact hn
  refine UniqueKey.perm_of_find?_eq (hkey l hl) (hkey m hm) fun k => ?_
  rw [List.find?_map, List.find?_map]
  exact h k

end PmSaas
