import Mathlib.Data.List.Nodup

/-!
# Tables: lists of rows with selective updates and deletes

`updateWhere p f t` rewrites the rows selected by `p` and `deleteWhere p t` removes them; an insert
appends.  The lemmas say how a view `t.filter q` of the table sees each of the three: not at all
when the rows touched are outside the view before and after.
-/

namespace Table

variable {α κ : Type*}

/-- `UPDATE … WHERE p`. -/
def updateWhere (p : α → Bool) (f : α → α) (t : List α) : List α :=
  t.map fun x => if p x then f x else x

/-- `DELETE … WHERE p`. -/
def deleteWhere (p : α → Bool) (t : List α) : List α := t.filter fun x => !p x

variable {p q : α → Bool} {f : α → α} {t : List α}

theorem updateWhere_cons (x : α) (t : List α) :
    updateWhere p f (x :: t) = (if p x then f x else x) :: updateWhere p f t := rfl

theorem mem_updateWhere {y : α} :
    y ∈ updateWhere p f t ↔ ∃ x ∈ t, (if p x then f x else x) = y := by
  simp [updateWhere]

@[simp] theorem mem_deleteWhere {x : α} : x ∈ deleteWhere p t ↔ x ∈ t ∧ p x = false := by
  simp [deleteWhere]

/-- Rows that an update does not select stay. -/
theorem mem_updateWhere_of_not {x : α} (hx : x ∈ t) (hp : p x = false) :
    x ∈ updateWhere p f t :=
  mem_updateWhere.2 ⟨x, hx, by simp [hp]⟩

/-- A column that the update leaves alone reads as before. -/
theorem map_updateWhere {g : α → κ} (h : ∀ x ∈ t, p x = true → g (f x) = g x) :
    (updateWhere p f t).map g = t.map g := by
  simp only [updateWhere, List.map_map]
  refine List.map_congr_left fun x hx => ?_
  by_cases hp : p x = true
  · simp [hp, h x hx hp]
  · simp [hp]

/-- An update seen through a view of each row. -/
theorem map_updateWhere_of {β : Type*} {g : α → β} {r : β → Bool} {f' : β → β}
    (hp : ∀ x, p x = r (g x)) (hf : ∀ x, g (f x) = f' (g x)) :
    (updateWhere p f t).map g = updateWhere r f' (t.map g) := by
  simp only [updateWhere, List.map_map]
  refine List.map_congr_left fun x _ => ?_
  simp only [Function.comp_apply, hp]
  split
  · exact hf x
  · rfl

/-- A test on columns that the update leaves alone selects the same rows. -/
theorem any_updateWhere {g : α → Bool} (h : ∀ x ∈ t, p x = true → g (f x) = g x) :
    (updateWhere p f t).any g = t.any g := by
  have hmap := map_updateWhere (p := p) (f := f) (t := t) (g := g) h
  have hany : ∀ l : List α, l.any g = (l.map g).any id := fun l => by simp [List.any_map]
  rw [hany, hany, hmap]

/-- A search on columns that the update leaves alone finds the rewritten version of the same row. -/
theorem find?_updateWhere {g : α → Bool} (h : ∀ x ∈ t, p x = true → g (f x) = g x) :
    (updateWhere p f t).find? g = (t.find? g).map fun x => if p x then f x else x := by
  induction t with
  | nil => rfl
  | cons x t ih =>
      have iht := ih fun y hy => h y (List.mem_cons_of_mem _ hy)
      have hx : g (if p x then f x else x) = g x := by
        by_cases hp : p x = true
        · simp [hp, h x (by simp) hp]
        · simp [hp]
      rw [updateWhere_cons, List.find?_cons, List.find?_cons, hx, iht]
      cases g x <;> rfl

/-- An update outside a view, before and after, does not show in it. -/
theorem filter_updateWhere (h : ∀ x ∈ t, p x = true → q x = false ∧ q (f x) = false) :
    (updateWhere p f t).filter q = t.filter q := by
  induction t with
  | nil => rfl
  | cons x t ih =>
      have iht := ih fun y hy => h y (List.mem_cons_of_mem _ hy)
      by_cases hp : p x = true
      · obtain ⟨h₁, h₂⟩ := h x (by simp) hp
        simp [updateWhere_cons, hp, h₁, h₂, iht]
      · simp [updateWhere_cons, hp, List.filter_cons, iht]

/-- An update that selects nothing. -/
theorem updateWhere_eq_self (h : ∀ x ∈ t, p x = false) : updateWhere p f t = t :=
  (List.map_congr_left fun x hx => by simp [h x hx]).trans (List.map_id t)

/-- An update that changes nothing rewrites each row it selects to itself. -/
theorem updateWhere_eq_self_iff : updateWhere p f t = t ↔ ∀ x ∈ t, p x = true → f x = x := by
  have hmap : updateWhere p f t = t ↔ ∀ x ∈ t, (if p x then f x else x) = x := by
    constructor
    · intro h
      exact List.map_inj_left.1 (h.trans (List.map_id t).symm)
    · intro h
      exact (List.map_congr_left h).trans (List.map_id t)
  rw [hmap]
  refine forall₂_congr fun x _ => ?_
  split <;> simp_all

theorem updateWhere_congr (h : ∀ x ∈ t, p x = q x) : updateWhere p f t = updateWhere q f t :=
  List.map_congr_left fun x hx => by rw [h x hx]

/-- An update that keeps the columns of a view can be made in the view. -/
theorem filter_updateWhere_comm (h : ∀ x ∈ t, p x = true → q (f x) = q x) :
    (updateWhere p f t).filter q = updateWhere p f (t.filter q) := by
  induction t with
  | nil => rfl
  | cons x t ih =>
      have iht := ih fun y hy => h y (List.mem_cons_of_mem _ hy)
      have hx : q (if p x then f x else x) = q x := by
        by_cases hp : p x = true
        · simp [hp, h x (by simp) hp]
        · simp [hp]
      rw [updateWhere_cons, List.filter_cons, List.filter_cons, hx, iht]
      cases q x <;> rfl

/-- An update moves the rows it selects into a view they were not in. -/
theorem length_filter_updateWhere (h : ∀ x ∈ t, p x = true → q x = false ∧ q (f x) = true) :
    ((updateWhere p f t).filter q).length = (t.filter q).length + (t.filter p).length := by
  induction t with
  | nil => rfl
  | cons x t ih =>
      have iht := ih fun y hy => h y (List.mem_cons_of_mem _ hy)
      rw [updateWhere_cons, List.filter_cons, List.filter_cons, List.filter_cons]
      by_cases hp : p x = true
      · obtain ⟨hx, hfx⟩ := h x List.mem_cons_self hp
        rw [if_pos hp, if_pos hfx, if_pos hp, if_neg (by simp [hx]), List.length_cons,
          List.length_cons, iht, Nat.add_assoc]
      · rw [if_neg hp, if_neg hp]
        by_cases hq : q x = true
        · rw [if_pos hq, if_pos hq, List.length_cons, List.length_cons, iht, Nat.add_right_comm]
        · rw [if_neg hq, if_neg hq, iht]

/-- Deleting rows outside a view does not show in it. -/
theorem filter_deleteWhere (h : ∀ x ∈ t, p x = true → q x = false) :
    (deleteWhere p t).filter q = t.filter q := by
  rw [deleteWhere, List.filter_filter]
  refine List.filter_congr fun x hx => ?_
  by_cases hp : p x = true
  · simp [h x hx hp]
  · simp [hp]

/-- A delete can be made in the view. -/
theorem filter_deleteWhere_comm : (deleteWhere p t).filter q = deleteWhere p (t.filter q) := by
  rw [deleteWhere, deleteWhere, List.filter_filter, List.filter_filter]
  exact List.filter_congr fun x _ => Bool.and_comm ..

/-- A delete by columns that a view shows can be made in the view. -/
theorem map_deleteWhere {β : Type*} {g : α → β} {r : β → Bool} :
    deleteWhere r (t.map g) = (deleteWhere (fun x => r (g x)) t).map g := by
  rw [deleteWhere, List.filter_map]
  rfl

/-- Deleting rows that a test does not select leaves its answer. -/
theorem any_deleteWhere (h : ∀ x ∈ t, p x = true → q x = false) :
    (deleteWhere p t).any q = t.any q := by
  rw [Bool.eq_iff_iff, List.any_eq_true, List.any_eq_true]
  constructor
  · rintro ⟨x, hx, hq⟩
    exact ⟨x, (mem_deleteWhere.1 hx).1, hq⟩
  · rintro ⟨x, hx, hq⟩
    refine ⟨x, mem_deleteWhere.2 ⟨hx, ?_⟩, hq⟩
    cases hp : p x with
    | false => rfl
    | true => exact absurd (h x hx hp) (by simp [hq])

/-- Inserting a row outside a view does not show in it. -/
theorem filter_insert {x : α} (h : q x = false) : (t ++ [x]).filter q = t.filter q := by
  simp [List.filter_append, h]

/-- Inserting a row of a view inserts it in the view. -/
theorem filter_insert_of {x : α} (h : q x = true) : (t ++ [x]).filter q = t.filter q ++ [x] := by
  simp [List.filter_append, h]

/-- Inserting rows outside a view does not show in it. -/
theorem filter_insertAll {u : List α} (h : ∀ x ∈ u, q x = false) :
    (t ++ u).filter q = t.filter q := by
  have hu : u.filter q = [] := List.filter_eq_nil_iff.2 fun x hx => by simp [h x hx]
  rw [List.filter_append, hu, List.append_nil]

/-! ### Queries on a view -/

/-- A query that selects rows of a view only can be asked of the view. -/
theorem filter_view (h : ∀ x ∈ t, p x = true → q x = true) : (t.filter q).filter p = t.filter p := by
  rw [List.filter_filter]
  refine List.filter_congr fun x hx => ?_
  cases hp : p x with
  | false => rfl
  | true => simp [h x hx hp]

theorem any_view (h : ∀ x ∈ t, p x = true → q x = true) : (t.filter q).any p = t.any p := by
  rw [List.any_filter, Bool.eq_iff_iff, List.any_eq_true, List.any_eq_true]
  refine exists_congr fun x => and_congr_right fun hx => ?_
  rw [Bool.and_eq_true]
  exact and_iff_right_of_imp (h x hx)

theorem find?_view (h : ∀ x ∈ t, p x = true → q x = true) : (t.filter q).find? p = t.find? p := by
  rw [← List.head?_filter, ← List.head?_filter, filter_view h]

/-! ### Unique keys -/

section Keys

variable {key : α → κ}

/-- A column without duplicates: a primary key or a unique index. -/
abbrev UniqueKey (key : α → κ) (t : List α) : Prop := (t.map key).Nodup

theorem UniqueKey.eq_of_key_eq (h : UniqueKey key t) {x y : α} (hx : x ∈ t) (hy : y ∈ t)
    (hk : key x = key y) : x = y :=
  List.inj_on_of_nodup_map h hx hy hk

theorem UniqueKey.insert (h : UniqueKey key t) {x : α} (hx : ∀ y ∈ t, key y ≠ key x) :
    UniqueKey key (t ++ [x]) := by
  rw [UniqueKey, List.map_append, List.nodup_append]
  refine ⟨h, by simp, ?_⟩
  intro k hk k' hk'
  obtain ⟨y, hy, rfl⟩ := List.mem_map.1 hk
  obtain rfl : k' = key x := by simpa using hk'
  exact hx y hy

theorem UniqueKey.delete (h : UniqueKey key t) (p : α → Bool) : UniqueKey key (deleteWhere p t) :=
  h.sublist (List.filter_sublist.map key)

theorem UniqueKey.update (h : UniqueKey key t) (hf : ∀ x ∈ t, p x = true → key (f x) = key x) :
    UniqueKey key (updateWhere p f t) := by
  rw [UniqueKey, map_updateWhere hf]
  exact h

/-- The one row that is rewritten gets a key that no other row has. -/
theorem UniqueKey.update_one (h : UniqueKey key t)
    (hone : ∀ x ∈ t, ∀ y ∈ t, p x = true → p y = true → x = y)
    (hfresh : ∀ x ∈ t, p x = true → ∀ y ∈ t, p y = false → key y ≠ key (f x)) :
    UniqueKey key (updateWhere p f t) := by
  rw [UniqueKey, updateWhere, List.map_map]
  refine (List.nodup_map_iff_inj_on h.of_map).2 fun x hx y hy heq => ?_
  simp only [Function.comp_apply] at heq
  cases hpx : p x with
  | true =>
      cases hpy : p y with
      | true => exact hone x hx y hy hpx hpy
      | false =>
          rw [if_pos hpx, if_neg (by simp [hpy])] at heq
          exact absurd heq.symm (hfresh x hx hpx y hy hpy)
  | false =>
      cases hpy : p y with
      | true =>
          rw [if_neg (by simp [hpx]), if_pos hpy] at heq
          exact absurd heq (hfresh y hy hpy x hx hpx)
      | false =>
          rw [if_neg (by simp [hpx]), if_neg (by simp [hpy])] at heq
          exact h.eq_of_key_eq hx hy heq

/-- With a unique key, a row found by a search that fixes the key is the only one with that key. -/
theorem UniqueKey.find?_eq (h : UniqueKey key t) {x : α} (hx : x ∈ t) (hq : q x = true)
    (hkey : ∀ y ∈ t, q y = true → key y = key x) : t.find? q = some x := by
  cases hfind : t.find? q with
  | none => exact absurd hq (by simpa using List.find?_eq_none.1 hfind x hx)
  | some y =>
      have hy := List.mem_of_find?_eq_some hfind
      have hyq := List.find?_some hfind
      rw [h.eq_of_key_eq hy hx (hkey y hy hyq)]

/-- The other rows of a table have other keys. -/
theorem UniqueKey.ne_around {l r : List α} {x : α} (h : UniqueKey key (l ++ x :: r)) :
    ∀ y ∈ l ++ r, key y ≠ key x := by
  intro y hy hk
  have hnd : (l.map key ++ key x :: r.map key).Nodup := by simpa [UniqueKey] using h
  rw [List.nodup_middle, List.nodup_cons, ← List.map_append] at hnd
  exact hnd.1 (hk ▸ List.mem_map_of_mem hy)

/-- Deleting the row with a given key. -/
theorem UniqueKey.deleteWhere_eq [DecidableEq κ] {l r : List α} {x : α}
    (h : UniqueKey key (l ++ x :: r)) :
    deleteWhere (fun y => key y = key x) (l ++ x :: r) = l ++ r := by
  have hsplit : deleteWhere (fun y => key y = key x) (l ++ x :: r) =
      deleteWhere (fun y => key y = key x) (l ++ r) := by
    simp [deleteWhere, List.filter_append]
  rw [hsplit, deleteWhere, List.filter_eq_self]
  exact fun y hy => by simpa using h.ne_around y hy

/-- The rows with the key of a row. -/
theorem UniqueKey.filter_eq [BEq κ] [LawfulBEq κ] (h : UniqueKey key t) {x : α} (hx : x ∈ t) :
    t.filter (fun y => key y == key x) = [x] := by
  obtain ⟨l, r, rfl⟩ := List.append_of_mem hx
  have hothers : (l ++ r).filter (fun y => key y == key x) = [] := by
    refine List.filter_eq_nil_iff.2 fun y hy => ?_
    simpa using h.ne_around y hy
  rw [List.filter_append, List.append_eq_nil_iff] at hothers
  rw [List.filter_append, List.filter_cons, if_pos (beq_self_eq_true _), hothers.1, hothers.2]
  rfl

theorem UniqueKey.find?_iff [BEq κ] [LawfulBEq κ] (h : UniqueKey key t) {x : α} {k : κ} :
    t.find? (fun y => key y == k) = some x ↔ x ∈ t ∧ key x = k := by
  constructor
  · intro hfind
    exact ⟨List.mem_of_find?_eq_some hfind, by simpa using List.find?_some hfind⟩
  · rintro ⟨hx, rfl⟩
    exact h.find?_eq hx (by simp) fun y _ hy => by simpa using hy

/-- Tables with the same row under every key have the same rows. -/
theorem UniqueKey.perm_of_find?_eq [BEq κ] [LawfulBEq κ] {t' : List α} (h : UniqueKey key t)
    (h' : UniqueKey key t')
    (heq : ∀ k, t.find? (fun y => key y == k) = t'.find? fun y => key y == k) : t.Perm t' := by
  refine (List.perm_ext_iff_of_nodup h.of_map h'.of_map).2 fun x => ?_
  have hx : t.find? (fun y => key y == key x) = some x ↔
      t'.find? (fun y => key y == key x) = some x := by rw [heq]
  rw [h.find?_iff, h'.find?_iff] at hx
  simpa using hx

/-- Rewriting the row with a given key, seen through a view: the view loses the row and gains its
new version if that is in the view. -/
theorem UniqueKey.filter_updateWhere_perm [BEq κ] [LawfulBEq κ] (h : UniqueKey key t) {x : α}
    (hx : x ∈ t) :
    ((updateWhere (fun y => key y == key x) f t).filter q).Perm
      ((if q (f x) then [f x] else []) ++ (t.filter q).filter fun y => key y != key x) := by
  obtain ⟨l, r, rfl⟩ := List.append_of_mem hx
  have hkeys : ∀ y, y ∈ l ∨ y ∈ r → key y ≠ key x :=
    fun y hy => h.ne_around y (List.mem_append.2 hy)
  have hsame : ∀ u : List α, (∀ y ∈ u, key y ≠ key x) →
      updateWhere (fun y => key y == key x) f u = u := by
    intro u hu
    refine (List.map_congr_left fun y hy => ?_).trans (List.map_id u)
    simp [hu y hy]
  have hkeep : ∀ u : List α, (∀ y ∈ u, key y ≠ key x) →
      (u.filter q).filter (fun y => key y != key x) = u.filter q := by
    intro u hu
    refine List.filter_eq_self.2 fun y hy => ?_
    simpa using hu y (List.mem_of_mem_filter hy)
  have hupd : updateWhere (fun y => key y == key x) f (l ++ x :: r) = l ++ f x :: r := by
    have happ : updateWhere (fun y => key y == key x) f (l ++ x :: r) =
        updateWhere (fun y => key y == key x) f l ++
          updateWhere (fun y => key y == key x) f (x :: r) := List.map_append
    rw [happ, updateWhere_cons, hsame l fun y hy => hkeys y (.inl hy),
      hsame r fun y hy => hkeys y (.inr hy)]
    simp
  have hrest : ((l ++ x :: r).filter q).filter (fun y => key y != key x) =
      l.filter q ++ r.filter q := by
    rw [List.filter_append, List.filter_append, hkeep l fun y hy => hkeys y (.inl hy)]
    by_cases hq : q x = true
    · simp [hq, hkeep r fun y hy => hkeys y (.inr hy)]
    · simp [hq, hkeep r fun y hy => hkeys y (.inr hy)]
  rw [hupd, hrest, List.filter_append, List.filter_cons]
  split
  · exact List.perm_middle
  · simp

end Keys

end Table
