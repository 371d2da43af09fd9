import Mathlib.Tactic

/-!
# Short changes of a list

A list with one element, or two adjacent ones, replaced by others.
-/

/-- The lists are of one length and differ exactly at the `width` positions from `off` on,
of which there are one or two. -/
structure ShortChange {α : Type*} (l l' : List α) (off width : ℕ) : Prop where
  short : width = 1 ∨ width = 2
  inside : off + width ≤ l.length
  length : l'.length = l.length
  differs : ∀ j, l[j]? ≠ l'[j]? ↔ off ≤ j ∧ j < off + width

namespace ShortChange

variable {α : Type*} {l l' m m' : List α} {off width : ℕ}

theorem set {a : α} (hoff : off < l.length) (hne : l[off] ≠ a) :
    ShortChange l (l.set off a) off 1 := by
  refine ⟨Or.inl rfl, hoff, List.length_set, fun j => ?_⟩
  rw [List.getElem?_set]
  split_ifs with hj
  · subst hj
    simpa [hoff] using hne
  · exact iff_of_false (not_not.mpr rfl) (by omega)

theorem getElem?_eq (h : ShortChange l l' off width) {j : ℕ} (hj : j < off ∨ off + width ≤ j) :
    l[j]? = l'[j]? := by
  by_contra hne
  have hin := (h.differs j).mp hne
  omega

theorem getElem_ne (h : ShortChange l l' off width) {j : ℕ} (hle : off ≤ j) (hlt : j < off + width)
    (hj : j < l.length) (hj' : j < l'.length) : l[j] ≠ l'[j] := by
  have hdiffers := (h.differs j).mpr ⟨hle, hlt⟩
  rwa [List.getElem?_eq_getElem hj, List.getElem?_eq_getElem hj', ne_eq, Option.some.injEq]
    at hdiffers

theorem ne (h : ShortChange l l' off width) : l ≠ l' := by
  rintro rfl
  have hpos : off < off + width := by
    rcases h.short with hw | hw <;> omega
  exact (h.differs off).mpr ⟨le_rfl, hpos⟩ rfl

theorem take_eq (h : ShortChange l l' off width) {n : ℕ} (hn : n ≤ off) : l.take n = l'.take n := by
  apply List.ext_getElem?
  intro j
  rw [List.getElem?_take, List.getElem?_take]
  split_ifs with hj
  · exact h.getElem?_eq (Or.inl (by omega))
  · rfl

theorem drop_eq (h : ShortChange l l' off width) {n : ℕ} (hn : off + width ≤ n) :
    l.drop n = l'.drop n := by
  apply List.ext_getElem?
  intro j
  rw [List.getElem?_drop, List.getElem?_drop]
  exact h.getElem?_eq (Or.inr (by omega))

/-- The first changed element, with what follows it: the same, or with another head. -/
theorem exists_split (h : ShortChange l l' off width) :
    ∃ a a' rest rest', a ≠ a' ∧ l = l.take off ++ a :: rest ∧ l' = l.take off ++ a' :: rest' ∧
      (rest = rest' ∨ ∃ b b' post, b ≠ b' ∧ rest = b :: post ∧ rest' = b' :: post) := by
  have hwidth := h.short
  have hinside := h.inside
  have hlength := h.length
  have hoff : off < l.length := by omega
  have hoff' : off < l'.length := by omega
  have hsplit : l = l.take off ++ l[off] :: l.drop (off + 1) := by
    rw [List.cons_getElem_drop_succ, List.take_append_drop]
  have hsplit' : l' = l.take off ++ l'[off] :: l'.drop (off + 1) := by
    rw [h.take_eq le_rfl, List.cons_getElem_drop_succ, List.take_append_drop]
  have hne : l[off] ≠ l'[off] := h.getElem_ne le_rfl (by omega) hoff hoff'
  refine ⟨l[off], l'[off], _, _, hne, hsplit, hsplit', ?_⟩
  rcases hwidth with rfl | rfl
  · exact Or.inl (h.drop_eq le_rfl)
  · have hnext : off + 1 < l.length := by omega
    have hnext' : off + 1 < l'.length := by omega
    refine Or.inr ⟨l[off + 1], l'[off + 1], l.drop (off + 2), ?_, ?_, ?_⟩
    · exact h.getElem_ne (by omega) (by omega) hnext hnext'
    · rw [List.cons_getElem_drop_succ]
    · rw [h.drop_eq le_rfl, List.cons_getElem_drop_succ]

theorem of_append (h : ShortChange (m ++ l) (m ++ l') off width) :
    m.length ≤ off ∧ ShortChange l l' (off - m.length) width := by
  have hwidth := h.short
  have hinside := h.inside
  have hlength := h.length
  rw [List.length_append] at hinside
  rw [List.length_append, List.length_append] at hlength
  have hafter : m.length ≤ off := by
    by_contra hbefore
    have hdiffers := (h.differs off).mpr ⟨le_rfl, by omega⟩
    rw [List.getElem?_append_left (by omega), List.getElem?_append_left (by omega)] at hdiffers
    exact hdiffers rfl
  refine ⟨hafter, hwidth, by omega, by omega, fun j => ?_⟩
  have hj := h.differs (m.length + j)
  rw [List.getElem?_append_right (by omega), List.getElem?_append_right (by omega),
    Nat.add_sub_cancel_left] at hj
  rw [hj]
  omega

theorem of_append_left (h : ShortChange (l ++ m) (l' ++ m') off width)
    (hlength : l'.length = l.length) (hfront : off + width ≤ l.length) :
    ShortChange l l' off width ∧ m = m' := by
  have hrest : m = m' := by
    have hdrop := h.drop_eq hfront
    rwa [List.drop_left, ← hlength, List.drop_left] at hdrop
  refine ⟨⟨h.short, hfront, hlength, fun j => ?_⟩, hrest⟩
  rcases lt_or_ge j l.length with hj | hj
  · have hdiffers := h.differs j
    rwa [List.getElem?_append_left hj, List.getElem?_append_left (hlength ▸ hj)] at hdiffers
  · rw [List.getElem?_eq_none hj, List.getElem?_eq_none (hlength ▸ hj)]
    exact iff_of_false (not_not.mpr rfl) (by omega)

/-- A change across the boundary of two parts changes the last element of the one and the
first of the other. -/
theorem of_append_across (h : ShortChange (l ++ m) (l' ++ m') off width)
    (hlength : l'.length = l.length) (hfront : off < l.length) (hback : l.length < off + width) :
    (∃ pre a a', a ≠ a' ∧ l = pre ++ [a] ∧ l' = pre ++ [a']) ∧ m.tail = m'.tail := by
  have hoff : off + 1 = l.length ∧ width = 2 := by
    rcases h.short with hw | hw <;> omega
  obtain ⟨hlast, rfl⟩ := hoff
  have htake : l.take off = l'.take off := by
    have hwhole := h.take_eq le_rfl
    rwa [List.take_append_of_le_length (by omega), List.take_append_of_le_length (by omega)]
      at hwhole
  have hsplit : l = l.take off ++ [l[off]] := by
    rw [List.take_append_getElem, hlast, List.take_length]
  have hoff' : off < l'.length := by omega
  have hsplit' : l' = l.take off ++ [l'[off]] := by
    rw [htake, List.take_append_getElem, hlast, ← hlength, List.take_length]
  constructor
  · refine ⟨l.take off, l[off], l'[off], ?_, hsplit, hsplit'⟩
    have hdiffers := h.getElem_ne le_rfl (by omega) (by rw [List.length_append]; omega)
      (by rw [List.length_append]; omega)
    rwa [List.getElem_append_left hfront, List.getElem_append_left hoff'] at hdiffers
  · have hbehind : ∀ k k' : List α, k.length = l.length →
        (k ++ k').drop (l.length + 1) = k'.tail := by
      intro k k' hk
      rw [← hk, ← List.drop_drop, List.drop_left, List.drop_one]
    have hdrop : (l ++ m).drop (l.length + 1) = (l' ++ m').drop (l.length + 1) :=
      h.drop_eq (by omega)
    rwa [hbehind l m rfl, hbehind l' m' hlength] at hdrop

end ShortChange
