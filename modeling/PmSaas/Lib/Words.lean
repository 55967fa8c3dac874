import Mathlib.Data.List.DropRight
import Mathlib.Data.List.TakeWhile

/-!
# Words of a list

The words of a list are its maximal runs of kept elements; `joinedBy` writes words with one
separator between them.

* `words_induction`: a list is empty, or begins with an element that is not kept, or with a word;
* `getElem?_joinedBy`: the separators of joined words stand where the words before them end.
-/

namespace Words

variable {α : Type*} (p : α → Bool)

/-- The maximal runs of kept elements. -/
def words (l : List α) : List (List α) := (l.splitOnP (!p ·)).filter (!·.isEmpty)

variable {p} {c : α} {l w : List α}

theorem words_nil : words p [] = [] := by simp [words]

theorem words_skip (hc : p c = false) (l : List α) : words p (c :: l) = words p l := by
  simp [words, List.splitOnP_cons_eq_if_modifyHead, hc]

/-- A single word. -/
theorem words_last (hw : w ≠ []) (hkeep : ∀ a ∈ w, p a = true) : words p w = [w] := by
  have hnone : ∀ a ∈ w, (!p a) = false := fun a ha => by rw [hkeep a ha]; rfl
  rw [words, List.splitOnP_eq_singleton hnone]
  simp [hw]

/-- A first word. -/
theorem words_first (hw : w ≠ []) (hkeep : ∀ a ∈ w, p a = true) (hc : p c = false)
    (l : List α) : words p (w ++ c :: l) = w :: words p l := by
  have hnone : ∀ a ∈ w, (!p a) = false := fun a ha => by rw [hkeep a ha]; rfl
  have hsep : (!p c) = true := by rw [hc]; rfl
  rw [words, List.splitOnP_append_cons_of_forall_mem hnone c hsep, List.filter_cons]
  simp [words, hw]

/-- What is not kept at the end belongs to no word. -/
theorem words_concat (hc : p c = false) (l : List α) :
    words p (l ++ [c]) = words p l := by
  have hsep : (!p c) = true := by rw [hc]; rfl
  rw [words, List.splitOnP_append_cons l [] hsep]
  simp [words]

/-- **Induction on the words.** -/
@[elab_as_elim]
theorem words_induction {motive : List α → Prop} (nil : motive [])
    (skip : ∀ c l, p c = false → motive l → motive (c :: l))
    (last : ∀ w, w ≠ [] → (∀ a ∈ w, p a = true) → motive w)
    (first : ∀ w c l, w ≠ [] → (∀ a ∈ w, p a = true) → p c = false → motive l →
      motive (w ++ c :: l)) (l : List α) : motive l := by
  induction hn : l.length using Nat.strongRecOn generalizing l with
  | ind n ih =>
      cases hl : l with
      | nil => exact nil
      | cons c t =>
          subst hl
          cases hc : p c with
          | false => exact skip c t hc (ih t.length (by simp [← hn]) t rfl)
          | true =>
              have hword : (c :: t).takeWhile p ≠ [] := by simp [hc]
              have hkeep : ∀ a ∈ (c :: t).takeWhile p, p a = true := fun a ha =>
                List.mem_takeWhile_imp ha
              have hsplit := List.takeWhile_append_dropWhile (p := p) (l := c :: t)
              cases hrest : (c :: t).dropWhile p with
              | nil =>
                  rw [hrest, List.append_nil] at hsplit
                  rw [← hsplit]
                  exact last _ hword hkeep
              | cons d u =>
                  have hd : p d = false := by
                    have hhead := List.head?_dropWhile_not p (c :: t)
                    rw [hrest] at hhead
                    simpa using hhead
                  rw [hrest] at hsplit
                  have hlength := congrArg List.length hsplit
                  rw [List.length_append, List.length_cons, hn] at hlength
                  rw [← hsplit]
                  exact first _ d u hword hkeep hd (ih u.length (by omega) u rfl)

theorem of_mem_words (h : w ∈ words p l) : w ≠ [] ∧ ∀ a ∈ w, p a = true := by
  induction l using words_induction (p := p) with
  | nil => simp [words_nil] at h
  | skip c l hc ih =>
      rw [words_skip hc] at h
      exact ih h
  | last v hv hkeep =>
      rw [words_last hv hkeep, List.mem_singleton] at h
      rw [h]
      exact ⟨hv, hkeep⟩
  | first v c l hv hkeep hc ih =>
      rw [words_first hv hkeep hc, List.mem_cons] at h
      obtain rfl | h := h
      · exact ⟨hv, hkeep⟩
      · exact ih h

/-- The words hold all that is kept. -/
theorem flatten_words (l : List α) : (words p l).flatten = l.filter p := by
  induction l using words_induction (p := p) with
  | nil => simp [words_nil]
  | skip c l hc ih => rw [words_skip hc, ih, List.filter_cons_of_neg (by simp [hc])]
  | last v hv hkeep =>
      rw [words_last hv hkeep, List.filter_eq_self.2 hkeep, List.flatten_singleton]
  | first v c l hv hkeep hc ih =>
      rw [words_first hv hkeep hc, List.flatten_cons, ih, List.filter_append,
        List.filter_eq_self.2 hkeep, List.filter_cons_of_neg (by simp [hc])]

/-- Leading elements that are not kept. -/
theorem words_dropWhile {q : α → Bool} (hq : ∀ a, q a = true → p a = false) (l : List α) :
    words p (l.dropWhile q) = words p l := by
  induction l with
  | nil => rfl
  | cons c l ih =>
      rw [List.dropWhile_cons]
      split
      · rename_i hc
        rw [ih, words_skip (hq c hc)]
      · rfl

/-- Trailing elements that are not kept. -/
theorem words_rdropWhile {q : α → Bool} (hq : ∀ a, q a = true → p a = false) (l : List α) :
    words p (l.rdropWhile q) = words p l := by
  induction l using List.reverseRecOn with
  | nil => rfl
  | append_singleton l c ih =>
      rw [List.rdropWhile_concat]
      split
      · rename_i hc
        rw [ih, words_concat (hq c hc)]
      · rfl

/-! ### Joined words -/

/-- The words with a separator between them. -/
def joinedBy (sep : α) (ws : List (List α)) : List α := [sep].intercalate ws

variable {sep : α} {ws vs : List (List α)}

theorem joinedBy_cons (hws : ws ≠ []) : joinedBy sep (w :: ws) = w ++ sep :: joinedBy sep ws := by
  rw [joinedBy, List.intercalate_cons_of_ne_nil hws, List.append_assoc]
  rfl

theorem joinedBy_append (hvs : vs ≠ []) (hws : ws ≠ []) :
    joinedBy sep (vs ++ ws) = joinedBy sep vs ++ sep :: joinedBy sep ws := by
  induction vs with
  | nil => exact absurd rfl hvs
  | cons v vs ih =>
      cases vs with
      | nil =>
          rw [List.singleton_append, joinedBy_cons hws, joinedBy, joinedBy,
            List.intercalate_singleton]
      | cons u us =>
          rw [List.cons_append, joinedBy_cons (by simp), joinedBy_cons (by simp), ih (by simp)]
          simp

theorem joinedBy_ne_nil (hws : ws ≠ []) (hwords : ∀ w ∈ ws, w ≠ []) : joinedBy sep ws ≠ [] := by
  cases ws with
  | nil => exact absurd rfl hws
  | cons w ws =>
      have hw := hwords w List.mem_cons_self
      cases ws with
      | nil => simpa [joinedBy] using hw
      | cons v vs =>
          rw [joinedBy_cons (by simp)]
          simp

theorem mem_joinedBy {a : α} (h : a ∈ joinedBy sep ws) : a = sep ∨ ∃ w ∈ ws, a ∈ w := by
  induction ws with
  | nil => cases h
  | cons w ws ih =>
      obtain rfl | hws := eq_or_ne ws []
      · rw [joinedBy, List.intercalate_singleton] at h
        exact .inr ⟨w, List.mem_cons_self, h⟩
      · rw [joinedBy_cons hws, List.mem_append, List.mem_cons] at h
        obtain h | rfl | h := h
        · exact .inr ⟨w, List.mem_cons_self, h⟩
        · exact .inl rfl
        · exact (ih h).imp_right fun ⟨v, hv, ha⟩ => ⟨v, List.mem_cons_of_mem _ hv, ha⟩

theorem length_le_flatten (hwords : ∀ w ∈ ws, w ≠ []) : ws.length ≤ ws.flatten.length := by
  induction ws with
  | nil => exact Nat.zero_le _
  | cons w ws ih =>
      have hw := List.length_pos_iff.2 (hwords w List.mem_cons_self)
      have hrest := ih fun v hv => hwords v (List.mem_cons_of_mem _ hv)
      rw [List.flatten_cons, List.length_append, List.length_cons]
      omega

/-- Each word but the last one adds a separator. -/
theorem length_joinedBy (hws : ws ≠ []) :
    (joinedBy sep ws).length + 1 = ws.flatten.length + ws.length := by
  induction ws with
  | nil => exact absurd rfl hws
  | cons w ws ih =>
      cases ws with
      | nil => simp [joinedBy]
      | cons v vs =>
          have hrest := ih (by simp)
          rw [joinedBy_cons (by simp), List.flatten_cons, List.length_append, List.length_append,
            List.length_cons, List.length_cons (a := w)]
          omega

theorem take_ne_nil {k : ℕ} (hpos : 0 < k) (hws : ws ≠ []) : ws.take k ≠ [] := fun hnil =>
  (List.take_eq_nil_iff.1 hnil).elim (Nat.pos_iff_ne_zero.1 hpos) hws

/-- The ends of the first words, with one word more in front. -/
theorem exists_length_joinedBy_cons (hws : ws ≠ []) {n : ℕ} :
    (∃ k, 0 < k ∧ k < (w :: ws).length ∧ (joinedBy sep ((w :: ws).take k)).length = n) ↔
      n = w.length ∨ ∃ k, 0 < k ∧ k < ws.length ∧
        w.length + 1 + (joinedBy sep (ws.take k)).length = n := by
  have htake : ∀ k, 0 < k → (joinedBy sep ((w :: ws).take (k + 1))).length =
      w.length + 1 + (joinedBy sep (ws.take k)).length := by
    intro k hpos
    rw [List.take_succ_cons, joinedBy_cons (take_ne_nil hpos hws), List.length_append,
      List.length_cons]
    omega
  have hone : (joinedBy sep ((w :: ws).take 1)).length = w.length := by simp [joinedBy]
  have hlength := List.length_pos_iff.2 hws
  constructor
  · rintro ⟨k, hpos, hlt, rfl⟩
    obtain rfl | ⟨k, rfl⟩ : k = 1 ∨ ∃ j, k = j + 2 := by
      obtain _ | _ | j := k
      · omega
      · exact .inl rfl
      · exact .inr ⟨j, rfl⟩
    · exact .inl hone
    · rw [List.length_cons] at hlt
      exact .inr ⟨k + 1, by omega, by omega, (htake _ (by omega)).symm⟩
  · rintro (rfl | ⟨k, hpos, hlt, rfl⟩)
    · exact ⟨1, by omega, by rw [List.length_cons]; omega, hone⟩
    · exact ⟨k + 1, by omega, by rw [List.length_cons]; omega, htake k hpos⟩

/-- **Where the separators are**: behind the first `k` words. -/
theorem getElem?_joinedBy (hwords : ∀ w ∈ ws, sep ∉ w) {n : ℕ} :
    (joinedBy sep ws)[n]? = some sep ↔
      ∃ k, 0 < k ∧ k < ws.length ∧ (joinedBy sep (ws.take k)).length = n := by
  induction ws generalizing n with
  | nil => simp [joinedBy]
  | cons w ws ih =>
      have hsep := hwords w List.mem_cons_self
      have hword : w[n]? ≠ some sep := fun hn => hsep (List.mem_of_getElem? hn)
      obtain rfl | hws := eq_or_ne ws []
      · refine iff_of_false ?_ ?_
        · rwa [joinedBy, List.intercalate_singleton]
        · rintro ⟨k, hpos, hlt, -⟩
          simp only [List.length_singleton] at hlt
          omega
      · rw [joinedBy_cons hws, exists_length_joinedBy_cons hws]
        obtain hlt | rfl | hgt := Nat.lt_trichotomy n w.length
        · rw [List.getElem?_append_left hlt]
          refine iff_of_false hword ?_
          rintro (rfl | ⟨k, hpos, hk, rfl⟩)
          · omega
          · omega
        · rw [List.getElem?_append_right le_rfl, Nat.sub_self]
          exact iff_of_true rfl (.inl rfl)
        · obtain ⟨m, rfl⟩ := Nat.exists_eq_add_of_lt hgt
          rw [List.getElem?_append_right (by omega),
            show w.length + m + 1 - w.length = m + 1 by omega, List.getElem?_cons_succ,
            ih fun u hu => hwords u (List.mem_cons_of_mem _ hu)]
          constructor
          · rintro ⟨k, hpos, hk, rfl⟩
            exact .inr ⟨k, hpos, hk, by omega⟩
          · rintro (heq | ⟨k, hpos, hk, heq⟩)
            · omega
            · exact ⟨k, hpos, hk, by omega⟩

/-- Joined words do not begin with a separator. -/
theorem head?_joinedBy_ne (hwords : ∀ w ∈ ws, w ≠ [] ∧ sep ∉ w) :
    (joinedBy sep ws).head? ≠ some sep := by
  rw [List.head?_eq_getElem?, Ne, getElem?_joinedBy fun w hw => (hwords w hw).2]
  rintro ⟨k, hpos, hk, hlength⟩
  have hne : ws ≠ [] := List.ne_nil_of_length_pos (by omega)
  exact joinedBy_ne_nil (take_ne_nil hpos hne) (fun w hw => (hwords w (List.mem_of_mem_take hw)).1)
    (List.length_eq_zero_iff.1 hlength)

/-- Nor do they end with one. -/
theorem getLast?_joinedBy_ne (hwords : ∀ w ∈ ws, w ≠ [] ∧ sep ∉ w) :
    (joinedBy sep ws).getLast? ≠ some sep := by
  rw [List.getLast?_eq_getElem?, Ne, getElem?_joinedBy fun w hw => (hwords w hw).2]
  rintro ⟨k, hpos, hk, hlength⟩
  have htake : ws.take k ≠ [] := take_ne_nil hpos (List.ne_nil_of_length_pos (by omega))
  have hdrop : ws.drop k ≠ [] := fun hnil => by
    rw [List.drop_eq_nil_iff] at hnil
    omega
  have hlater : joinedBy sep (ws.drop k) ≠ [] :=
    joinedBy_ne_nil hdrop fun w hw => (hwords w (List.mem_of_mem_drop hw)).1
  have htotal : (joinedBy sep (ws.take k ++ ws.drop k)).length = _ :=
    congrArg List.length (joinedBy_append htake hdrop)
  have hpositive := List.length_pos_iff.2 hlater
  rw [List.take_append_drop, List.length_append, List.length_cons] at htotal
  omega

end Words
