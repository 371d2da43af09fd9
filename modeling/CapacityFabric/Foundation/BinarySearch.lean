import Mathlib.Tactic

/-!
# Halving searches

The search for the end of an initial segment: it looks at the index in the middle and
goes on in the half that still holds the end.  Where no index of the segment follows one
outside, it finds the end that a scan from the front finds.
-/

namespace BinarySearch

/-- The first of `count` indices from `first` on that is not `below`. -/
def search (below : ℕ → Bool) (first count : ℕ) : ℕ :=
  if count = 0 then first
  else if below (first + count / 2) then
    search below (first + count / 2 + 1) (count - count / 2 - 1)
  else search below first (count / 2)
termination_by count

/-- The indices that are below come first. -/
def Partitioned (below : ℕ → Bool) : Prop := ∀ i j, i ≤ j → below j = true → below i = true

/-- `k` divides the indices from `first` to `stop` into those below and the others. -/
structure Divides (below : ℕ → Bool) (first stop k : ℕ) : Prop where
  first_le : first ≤ k
  le_stop : k ≤ stop
  below_of_lt : ∀ i, first ≤ i → i < k → below i = true
  not_below_of_le : ∀ i, k ≤ i → i < stop → below i = false

theorem search_divides {below : ℕ → Bool} (h : Partitioned below) (first count : ℕ) :
    Divides below first (first + count) (search below first count) := by
  fun_induction search below first count with
  | case1 first =>
    exact ⟨le_rfl, le_rfl, fun i hi hlt => absurd hi hlt.not_ge,
      fun i hi hlt => absurd hi hlt.not_ge⟩
  | case2 first count hcount hmiddle ih =>
    -- Everything up to the middle is below.
    obtain ⟨hfirst, hstop, hbelow, hrest⟩ := ih
    refine ⟨by omega, by omega, fun i hi hlt => ?_, fun i hi hlt => hrest i hi (by omega)⟩
    by_cases hi' : i ≤ first + count / 2
    · exact h i _ hi' hmiddle
    · exact hbelow i (by omega) hlt
  | case3 first count hcount hmiddle ih =>
    -- Nothing from the middle on is below.
    obtain ⟨hfirst, hstop, hbelow, hrest⟩ := ih
    refine ⟨hfirst, by omega, hbelow, fun i hi hlt => ?_⟩
    by_cases hi' : i < first + count / 2
    · exact hrest i hi hi'
    · exact Bool.eq_false_iff.mpr fun hbelow' => hmiddle (h _ i (by omega) hbelow')

section

variable {α : Type*} {p : α → Bool} {l : List α}

theorem length_takeWhile_eq {k : ℕ} (hk : k ≤ l.length) (hbelow : ∀ x ∈ l.take k, p x = true)
    (hrest : ∀ x ∈ l.drop k, p x = false) : (l.takeWhile p).length = k := by
  have hnil : (l.drop k).takeWhile p = [] := by
    cases hdrop : l.drop k with
    | nil => rfl
    | cons x xs =>
      have hx := hrest x (hdrop ▸ List.mem_cons_self)
      rw [List.takeWhile_cons_of_neg (by rw [hx]; exact Bool.false_ne_true)]
  conv_lhs => rw [← List.take_append_drop k l]
  rw [List.takeWhile_append_of_pos hbelow, hnil, List.append_nil, List.length_take,
    min_eq_left hk]

theorem any_getElem? {i : ℕ} (hi : i < l.length) : l[i]?.any p = p l[i] := by
  rw [List.getElem?_eq_getElem hi, Option.any_some]

theorem partitioned_of_pairwise (h : l.Pairwise fun a b => p b = true → p a = true) :
    Partitioned fun i => l[i]?.any p := by
  intro i j hij (hbelow : l[j]?.any p = true)
  show l[i]?.any p = true
  have hj : j < l.length := by
    by_contra hj
    rw [List.getElem?_eq_none (not_lt.mp hj)] at hbelow
    exact Bool.false_ne_true hbelow
  rcases hij.eq_or_lt with rfl | hlt
  · exact hbelow
  · rw [any_getElem? hj] at hbelow
    rw [any_getElem? (hij.trans_lt hj)]
    exact List.pairwise_iff_getElem.mp h i j _ hj hlt hbelow

/-- In a partitioned list the search ends where the scan from the front does. -/
theorem search_eq_length_takeWhile (h : l.Pairwise fun a b => p b = true → p a = true) :
    search (fun i => l[i]?.any p) 0 l.length = (l.takeWhile p).length := by
  have hdivides := search_divides (partitioned_of_pairwise h) 0 l.length
  rw [Nat.zero_add] at hdivides
  symm
  apply length_takeWhile_eq hdivides.le_stop
  · intro x hx
    obtain ⟨i, hi, rfl⟩ := List.mem_take_iff_getElem.mp hx
    have hbelow := hdivides.below_of_lt i (Nat.zero_le i) (by omega)
    rwa [any_getElem?] at hbelow
  · intro x hx
    obtain ⟨i, hi, rfl⟩ := List.mem_drop_iff_getElem.mp hx
    have hrest := hdivides.not_below_of_le (search (fun i => l[i]?.any p) 0 l.length + i)
      (by omega) (by omega)
    rwa [any_getElem?] at hrest

end

end BinarySearch
