import Mathlib.Data.List.Basic

/-!
# Quoted strings

A text between two marks, in which an escape takes the next letter literally.  Read back, a text
that was put between the marks as it stands is its own value exactly when all its letters are
plain: neither the mark nor the escape, and allowed between the marks (`unquote_of_plain`,
`plain_of_unquote`).
-/

namespace QuotedString

variable {α : Type*} [DecidableEq α]

/-- The letters of a quoted string. -/
structure Marks (α : Type*) where
  quote : α
  escape : α
  /-- What may stand between the marks. -/
  text : α → Bool
  /-- What may be escaped. -/
  escapable : α → Bool

/-- The letter stands for itself. -/
def Marks.Plain (m : Marks α) (a : α) : Prop := m.text a = true ∧ a ≠ m.quote ∧ a ≠ m.escape

/-- The value of a quoted string whose opening mark is read, and what comes after its closing
mark. -/
def unquote (m : Marks α) : List α → Option (List α × List α)
  | [] => none
  | a :: s =>
      if a = m.quote then some ([], s)
      else if a = m.escape then
        match s with
        | [] => none
        | b :: s => if m.escapable b then (unquote m s).map fun p => (b :: p.1, p.2) else none
      else if m.text a then (unquote m s).map fun p => (a :: p.1, p.2)
      else none

variable {m : Marks α}

theorem unquote_quote (s : List α) : unquote m (m.quote :: s) = some ([], s) := by
  rw [unquote.eq_def]
  exact if_pos rfl

theorem unquote_of_ne {a : α} (hquote : a ≠ m.quote) (hescape : a ≠ m.escape) (s : List α) :
    unquote m (a :: s) =
      if m.text a then (unquote m s).map fun p => (a :: p.1, p.2) else none := by
  rw [unquote.eq_def]
  simp only [if_neg hquote, if_neg hescape]

/-- The letters of the value are read one by one, and then the mark. -/
theorem length_of_unquote {s v rest : List α} (h : unquote m s = some (v, rest)) :
    v.length + rest.length + 1 ≤ s.length := by
  fun_induction unquote m s generalizing v rest with
  | case1 => cases h
  | case2 s =>
      obtain ⟨rfl, rfl⟩ := Prod.mk.inj (Option.some.inj h)
      rw [List.length_nil, List.length_cons]
      omega
  | case3 hquote => cases h
  | case4 b s hescapable hquote ih =>
      obtain ⟨⟨v', rest'⟩, hread, heq⟩ := Option.map_eq_some_iff.1 h
      obtain ⟨rfl, rfl⟩ := Prod.mk.inj heq
      have hle := ih hread
      simp only [List.length_cons]
      omega
  | case5 b s hescapable hquote => cases h
  | case6 a s hquote hescape htext ih =>
      obtain ⟨⟨v', rest'⟩, hread, heq⟩ := Option.map_eq_some_iff.1 h
      obtain ⟨rfl, rfl⟩ := Prod.mk.inj heq
      have hle := ih hread
      simp only [List.length_cons]
      omega
  | case7 a s hquote hescape htext => cases h

/-- An escape is not in the value. -/
theorem length_of_unquote_escape (hmarks : m.escape ≠ m.quote) {s v rest : List α}
    (h : unquote m (m.escape :: s) = some (v, rest)) :
    v.length + rest.length + 1 ≤ s.length := by
  rw [unquote.eq_def] at h
  cases s with
  | nil =>
      simp only [if_neg hmarks, if_true] at h
      cases h
  | cons b s =>
      simp only [if_neg hmarks, if_true] at h
      by_cases hescapable : m.escapable b = true
      · rw [if_pos hescapable] at h
        obtain ⟨⟨v', rest'⟩, hread, heq⟩ := Option.map_eq_some_iff.1 h
        obtain ⟨rfl, rfl⟩ := Prod.mk.inj heq
        have hle := length_of_unquote hread
        simp only [List.length_cons]
        omega
      · rw [if_neg hescapable] at h
        cases h

/-- Plain letters are read as they stand. -/
theorem unquote_of_plain {s : List α} (h : ∀ a ∈ s, m.Plain a) (rest : List α) :
    unquote m (s ++ m.quote :: rest) = some (s, rest) := by
  induction s with
  | nil => exact unquote_quote rest
  | cons a s ih =>
      obtain ⟨⟨htext, hquote, hescape⟩, hs⟩ := List.forall_mem_cons.1 h
      rw [List.cons_append, unquote_of_ne hquote hescape, if_pos htext, ih hs]
      rfl

/-- A mark ends the value and an escape is not in it, so a text with one of them is not its own
value. -/
theorem plain_of_unquote {s rest : List α} (h : unquote m (s ++ [m.quote]) = some (s, rest)) :
    ∀ a ∈ s, m.Plain a := by
  induction s generalizing rest with
  | nil => exact fun a ha => absurd ha List.not_mem_nil
  | cons a s ih =>
      rw [List.cons_append] at h
      by_cases hquote : a = m.quote
      · rw [hquote, unquote_quote] at h
        cases h
      by_cases hescape : a = m.escape
      · subst hescape
        have hle := length_of_unquote_escape hquote h
        simp only [List.length_cons, List.length_append, List.length_nil] at hle
        omega
      rw [unquote_of_ne hquote hescape] at h
      by_cases htext : m.text a = true
      · rw [if_pos htext] at h
        obtain ⟨⟨v, rest'⟩, hread, heq⟩ := Option.map_eq_some_iff.1 h
        obtain ⟨hv, rfl⟩ := Prod.mk.inj heq
        obtain rfl := (List.cons.inj hv).2
        exact List.forall_mem_cons.2 ⟨⟨htext, hquote, hescape⟩, ih hread⟩
      · rw [if_neg htext] at h
        cases h

end QuotedString
