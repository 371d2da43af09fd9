import Mathlib.Algebra.Order.Field.Basic
import Mathlib.Data.List.DropRight
import Mathlib.Tactic

/-!
# Minima of optional amounts

A running minimum over amounts that may be absent.  An absent amount counts as
zero against a minimum that is already there, but a minimum that is itself absent
is replaced by whatever comes next.
-/

namespace OptionalMin

variable {K : Type*} [LinearOrder K] [Zero K]

/-- The minimum of `a` and `b`, where an absent `a` is no bound at all. -/
def leftMin (a b : Option K) : Option K := (a.map fun v => min v (b.getD 0)).or b

/-- The running minimum of `l`, absent at first. -/
def lowest (l : List (Option K)) : Option K := l.foldl leftMin none

@[simp] theorem leftMin_none (b : Option K) : leftMin none b = b := by simp [leftMin]

@[simp] theorem leftMin_some (v : K) (b : Option K) :
    leftMin (some v) b = some (min v (b.getD 0)) := by
  simp [leftMin]

theorem leftMin_self (a b : Option K) : leftMin (leftMin a b) b = leftMin a b := by
  cases a <;> cases b <;> simp

theorem le_foldl_leftMin_some_iff {q v : K} {l : List (Option K)} :
    q ≤ (l.foldl leftMin (some v)).getD 0 ↔ q ≤ v ∧ ∀ a ∈ l, q ≤ a.getD 0 := by
  induction l generalizing v with
  | nil => simp
  | cons a l ih =>
    rw [List.foldl_cons, leftMin_some, ih, le_min_iff, List.forall_mem_cons, and_assoc]

/-- The running minimum is at least a positive bound exactly when something is
present and everything from there on is. -/
theorem le_lowest_iff {q : K} (hq : 0 < q) {l : List (Option K)} :
    q ≤ (lowest l).getD 0 ↔
      l.dropWhile Option.isNone ≠ [] ∧ ∀ a ∈ l.dropWhile Option.isNone, q ≤ a.getD 0 := by
  unfold lowest
  induction l with
  | nil => simpa using hq
  | cons a l ih =>
    cases a with
    | none => simpa using ih
    | some v => simp [le_foldl_leftMin_some_iff]

theorem mem_scanl_iff {α β : Type*} {f : β → α → β} {b x : β} {l : List α} :
    x ∈ l.scanl f b ↔ ∃ p, p <+: l ∧ p.foldl f b = x := by
  induction l generalizing b with
  | nil => simp [eq_comm]
  | cons a l ih =>
    rw [List.scanl_cons, List.mem_cons, ih]
    constructor
    · rintro (rfl | ⟨p, hp, rfl⟩)
      · exact ⟨[], List.nil_prefix, rfl⟩
      · exact ⟨a :: p, List.cons_prefix_cons.mpr ⟨rfl, hp⟩, rfl⟩
    · rintro ⟨p, hp, rfl⟩
      rcases List.prefix_cons_iff.mp hp with rfl | ⟨q, rfl, hq⟩
      · exact Or.inl rfl
      · exact Or.inr ⟨q, hq, rfl⟩

section Walk

variable {f : Option K → K → Option K}

variable (f) in
/-- A step of a walk together with its running minimum. -/
def lowStep (s : Option K × Option K) (v : K) : Option K × Option K :=
  (leftMin s.1 (f s.2 v), f s.2 v)

theorem snd_foldl_lowStep (l : List K) (s : Option K × Option K) :
    (l.foldl (lowStep f) s).2 = l.foldl f s.2 := by
  induction l generalizing s with
  | nil => rfl
  | cons v l ih => exact ih _

/-- Below or at an amount that is there, and absent only where it is. -/
def Below (m o : Option K) : Prop := (m = none → o = none) ∧ m.getD 0 ≤ o.getD 0

theorem below_leftMin (m o : Option K) : Below (leftMin m o) o := by
  cases m with
  | none => simp [Below]
  | some v => simp [Below]

theorem below_foldl_lowStep {s : Option K × Option K} (h : Below s.1 s.2) (l : List K) :
    Below (l.foldl (lowStep f) s).1 (l.foldl (lowStep f) s).2 := by
  induction l generalizing s with
  | nil => exact h
  | cons v l ih => exact ih (below_leftMin _ _)

end Walk

end OptionalMin
