import Mathlib.Algebra.Order.BigOperators.Group.List
import Mathlib.Tactic

/-!
# Sums that saturate

A running total that stays at a bound once it gets there, as a counter of fixed width
that does not wrap around.  However the values are ordered, it is their plain sum, cut
off once at the end.
-/

namespace SaturatingSum

variable {K : Type*} [AddCommMonoid K] [LinearOrder K]

/-- The sum of `l`, cut off at `top`. -/
def saturatingSum (top : K) (l : List K) : K := min l.sum top

theorem saturatingSum_perm (top : K) {l l' : List K} (h : l.Perm l') :
    saturatingSum top l = saturatingSum top l' :=
  congrArg (min · top) h.sum_eq

theorem saturatingSum_mono [IsOrderedAddMonoid K] {B : Type*} (top : K)
    {weight weight' : B → K} {l : List B} (h : ∀ b ∈ l, weight b ≤ weight' b) :
    saturatingSum top (l.map weight) ≤ saturatingSum top (l.map weight') :=
  min_le_min_right top (List.sum_le_sum h)

variable [CanonicallyOrderedAdd K]

theorem min_min_add (top x y : K) : min (min x top + y) top = min (x + y) top := by
  rcases le_total x top with h | h
  · rw [min_eq_left h]
  · rw [min_eq_right h, min_eq_right le_self_add, min_eq_right (h.trans le_self_add)]

/-- A loop each of whose steps adds a weight and saturates forms the saturated sum of
the weights. -/
theorem foldl_saturates {S B : Type*} {top : K} {val : S → K} {weight : B → K}
    {step : S → B → S} (hval : ∀ s, val s ≤ top)
    (hstep : ∀ s b, val (step s b) = min (val s + weight b) top) (s : S) (l : List B) :
    val (l.foldl step s) = min (val s + (l.map weight).sum) top := by
  induction l generalizing s with
  | nil => rw [List.foldl_nil, List.map_nil, List.sum_nil, add_zero, min_eq_left (hval s)]
  | cons b l ih =>
    rw [List.foldl_cons, ih, hstep, min_min_add, List.map_cons, List.sum_cons, add_assoc]

theorem foldl_eq_saturatingSum {S B : Type*} {top : K} {val : S → K} {weight : B → K}
    {step : S → B → S} (hval : ∀ s, val s ≤ top)
    (hstep : ∀ s b, val (step s b) = min (val s + weight b) top) {s : S} (hs : val s = 0)
    (l : List B) : val (l.foldl step s) = saturatingSum top (l.map weight) := by
  rw [foldl_saturates hval hstep, hs, zero_add, saturatingSum]

end SaturatingSum
