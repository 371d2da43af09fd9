import Mathlib.Tactic

/-!
# First hits

The least element of a set that has a property, which is what a search in increasing
order returns.  Two searches over nested sets are compared by their first hits.
-/

namespace FirstHit

variable {T : Type*} [LinearOrder T] {A B P : T → Prop} {o o' : Option T}

/-- `o` is the least element of `A` with `P`, if there is one. -/
def IsFirst (A P : T → Prop) : Option T → Prop
  | none => ∀ t, A t → ¬P t
  | some s => A s ∧ P s ∧ ∀ t, A t → t < s → ¬P t

/-- Searches of a set and of a larger one have one hit exactly when each hit of the larger
set has a hit of the smaller one before it or at it. -/
theorem IsFirst.eq_iff (h : IsFirst A P o) (h' : IsFirst B P o') (hsub : ∀ t, A t → B t) :
    o = o' ↔ ∀ t, B t → P t → ∃ s, A s ∧ s ≤ t ∧ P s := by
  constructor
  · rintro rfl t ht hP
    cases o with
    | none => exact absurd hP (h' t ht)
    | some s => exact ⟨s, h.1, le_of_not_gt fun hlt => h'.2.2 t ht hlt hP, h.2.1⟩
  · intro hcover
    cases o' with
    | none =>
      cases o with
      | none => rfl
      | some s => exact absurd h.2.1 (h' s (hsub s h.1))
    | some s' =>
      obtain ⟨r, hr, hrs, hP⟩ := hcover s' h'.1 h'.2.1
      cases o with
      | none => exact absurd hP (h r hr)
      | some s =>
        have hsr : s ≤ r := le_of_not_gt fun hlt => h.2.2 r hr hlt hP
        have hs's : s' ≤ s := le_of_not_gt fun hlt => h'.2.2 s (hsub s h.1) hlt h.2.1
        exact congrArg some (le_antisymm (hsr.trans hrs) hs's)

theorem IsFirst.unique (h : IsFirst A P o) (h' : IsFirst A P o') : o = o' :=
  (h.eq_iff h' fun _ ht => ht).mpr fun t ht hP => ⟨t, ht, le_rfl, hP⟩

/-- A larger set has the same first hit, if what it has more misses. -/
theorem IsFirst.enlarge (h : IsFirst A P o) (hsub : ∀ t, A t → B t)
    (hmiss : ∀ t, B t → ¬A t → ¬P t) : IsFirst B P o := by
  cases o with
  | none =>
    intro t ht
    by_cases hA : A t
    · exact h t hA
    · exact hmiss t ht hA
  | some s =>
    refine ⟨hsub s h.1, h.2.1, fun t ht hlt => ?_⟩
    by_cases hA : A t
    · exact h.2.2 t hA hlt
    · exact hmiss t ht hA

/-- A search along a strictly increasing list returns its first hit. -/
theorem isFirst_find? {l : List T} (hl : l.Pairwise (· < ·)) (p : T → Bool) :
    IsFirst (· ∈ l) (fun t => p t = true) (l.find? p) := by
  induction l with
  | nil => exact fun t ht => absurd ht List.not_mem_nil
  | cons a l ih =>
    obtain ⟨ha, hl⟩ := List.pairwise_cons.mp hl
    by_cases hp : p a = true
    · rw [List.find?_cons_of_pos hp]
      refine ⟨List.mem_cons_self, hp, fun t ht hlt => ?_⟩
      rcases List.mem_cons.mp ht with rfl | ht
      · exact absurd hlt (lt_irrefl t)
      · exact absurd hlt (ha t ht).not_gt
    · rw [List.find?_cons_of_neg hp]
      have hrest := ih hl
      cases hfind : l.find? p with
      | none =>
        rw [hfind] at hrest
        exact List.forall_mem_cons.mpr ⟨hp, hrest⟩
      | some s =>
        rw [hfind] at hrest
        refine ⟨List.mem_cons_of_mem a hrest.1, hrest.2.1, ?_⟩
        exact List.forall_mem_cons.mpr ⟨fun _ => hp, hrest.2.2⟩

end FirstHit
