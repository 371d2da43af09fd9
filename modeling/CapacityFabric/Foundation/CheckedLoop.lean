import Mathlib.Tactic

/-!
# Loops that check a bound

A loop that gives up as soon as a step would exceed a bound on a measure.  Where no step
lowers the measure, the loop gets through exactly when the plain loop ends within the
bound, and then it ends in the same state.  What is computed from it afterwards gives up
with it.
-/

namespace CheckedLoop

section YieldsIf

variable {α β : Type*} {x : Option α} {a : α} {P : Prop}

/-- The computation ends with `a` where `P` holds, and gives up otherwise. -/
def YieldsIf (x : Option α) (a : α) (P : Prop) : Prop := ∀ a', x = some a' ↔ a' = a ∧ P

theorem YieldsIf.bind (h : YieldsIf x a P) {k : α → Option β} {b : β} {Q : Prop}
    (hk : YieldsIf (k a) b Q) : YieldsIf (x.bind k) b (P ∧ Q) := by
  intro b'
  rw [Option.bind_eq_some_iff]
  constructor
  · rintro ⟨a', ha', hb'⟩
    obtain ⟨rfl, hP⟩ := (h a').mp ha'
    obtain ⟨heq, hQ⟩ := (hk b').mp hb'
    exact ⟨heq, hP, hQ⟩
  · rintro ⟨heq, hP, hQ⟩
    exact ⟨a, (h a).mpr ⟨rfl, hP⟩, (hk b').mpr ⟨heq, hQ⟩⟩

theorem YieldsIf.map (h : YieldsIf x a P) (f : α → β) :
    YieldsIf (x.bind fun a => some (f a)) (f a) P := by
  have hend : YieldsIf (some (f a)) (f a) True := fun b => by
    rw [Option.some.injEq, and_true, eq_comm]
  intro b
  rw [h.bind hend b, and_true]

theorem YieldsIf.eq_none_iff (h : YieldsIf x a P) : x = none ↔ ¬P := by
  rw [Option.eq_none_iff_forall_ne_some]
  constructor
  · exact fun hnone hP => hnone a ((h a).mpr ⟨rfl, hP⟩)
  · exact fun hP a' ha' => hP ((h a').mp ha').2

end YieldsIf

variable {S A K : Type*} [Preorder K]

/-- The checked step is the plain one, or gives up where that exceeds the bound.  The
measure never falls. -/
structure Checks (step? : S → A → Option S) (step : S → A → S) (measure : S → K) (bound : K)
    (a : A) : Prop where
  grows : ∀ s, measure s ≤ measure (step s a)
  checked : ∀ s s', measure s ≤ bound →
    (step? s a = some s' ↔ s' = step s a ∧ measure s' ≤ bound)

variable {step? : S → A → Option S} {step : S → A → S} {measure : S → K} {bound : K}

theorem measure_le_foldl {as : List A} (h : ∀ a ∈ as, Checks step? step measure bound a) (s : S) :
    measure s ≤ measure (as.foldl step s) := by
  induction as generalizing s with
  | nil => exact le_rfl
  | cons a as ih =>
    calc measure s ≤ measure (step s a) := (h a List.mem_cons_self).grows s
      _ ≤ _ := ih (fun b hb => h b (List.mem_cons_of_mem a hb)) (step s a)

/-- The checked loop ends exactly where the plain one ends within the bound. -/
theorem foldlM_eq_some_iff {as : List A} (h : ∀ a ∈ as, Checks step? step measure bound a) {s : S}
    (hs : measure s ≤ bound) (s' : S) :
    as.foldlM step? s = some s' ↔ s' = as.foldl step s ∧ measure s' ≤ bound := by
  induction as generalizing s with
  | nil =>
    rw [List.foldlM_nil, List.foldl_nil]
    constructor
    · intro heq
      obtain rfl : s = s' := Option.some.inj heq
      exact ⟨rfl, hs⟩
    · rintro ⟨rfl, -⟩
      rfl
  | cons a as ih =>
    have hrest : ∀ b ∈ as, Checks step? step measure bound b :=
      fun b hb => h b (List.mem_cons_of_mem a hb)
    have hchecked := (h a List.mem_cons_self).checked s
    rw [List.foldlM_cons, List.foldl_cons, Option.bind_eq_bind, Option.bind_eq_some_iff]
    constructor
    · rintro ⟨t, ht, hloop⟩
      obtain ⟨rfl, hbound⟩ := (hchecked t hs).mp ht
      exact (ih hrest hbound).mp hloop
    · rintro ⟨rfl, hbound⟩
      -- The measure only grows, so that the first step is within the bound.
      have hfirst : measure (step s a) ≤ bound := (measure_le_foldl hrest _).trans hbound
      exact ⟨step s a, (hchecked _ hs).mpr ⟨rfl, hfirst⟩, (ih hrest hfirst).mpr ⟨rfl, hbound⟩⟩

theorem eq_foldl_of_foldlM {as : List A} (h : ∀ s a s', step? s a = some s' → s' = step s a)
    {s s' : S} (hloop : as.foldlM step? s = some s') : s' = as.foldl step s := by
  induction as generalizing s with
  | nil => exact (Option.some.inj hloop).symm
  | cons a as ih =>
    obtain ⟨t, ht, hrest⟩ := Option.bind_eq_some_iff.mp hloop
    rw [List.foldl_cons, ← h s a t ht]
    exact ih hrest

end CheckedLoop
