import CapacityFabric.Foundation.Runs
import CapacityFabric.Model.Generations

/-!
# The history of a tracker

A tracker refuses a valid generation that is behind the current one, but not the invalid
one, with which every earlier generation is let in again.
-/

namespace CapacityFabric

namespace GenerationTracker

variable {idTag : IdTag} {genTag : GenerationTag}

def call (t : GenerationTracker idTag genTag) (c : StrongId idTag × Generation genTag) :
    GenerationTracker idTag genTag :=
  (t.advance c.1 c.2).1

/-- Along the calls no current generation decreases, a refused call changes nothing, an
accepted one sets the current generation, and what is stale stays so. -/
structure NeverRegresses (t : GenerationTracker idTag genTag)
    (calls : List (StrongId idTag × Generation genTag)) : Prop where
  current_le : ∀ before after, before ++ after <+: calls → ∀ id,
    ((Runs.run call t before).current id).value ≤
      ((Runs.run call t (before ++ after)).current id).value
  refused : ∀ before c, before ++ [c] <+: calls →
    ((Runs.run call t before).advance c.1 c.2).2 = false →
      Runs.run call t (before ++ [c]) = Runs.run call t before
  accepted : ∀ before c, before ++ [c] <+: calls →
    ((Runs.run call t before).advance c.1 c.2).2 = true →
      (Runs.run call t (before ++ [c])).current c.1 = c.2
  stale : ∀ before after, before ++ after <+: calls → ∀ id observed,
    (Runs.run call t before).isStale id observed = true →
      (Runs.run call t (before ++ after)).isStale id observed = true

/-- The call offers a valid generation, or its id has none yet. -/
def OffersValid (t : GenerationTracker idTag genTag) (c : StrongId idTag × Generation genTag) :
    Prop :=
  c.2.valid = true ∨ (t.current c.1).valid = false

theorem isStale_iff {t : GenerationTracker idTag genTag} {id : StrongId idTag}
    {observed : Generation genTag} :
    t.isStale id observed = true ↔ observed.value < (t.current id).value := by
  simp only [isStale, Bool.and_eq_true, decide_eq_true_eq, Generation.valid_iff,
    UInt64.lt_iff_toNat_lt]
  omega

theorem valid_of_isStale {t : GenerationTracker idTag genTag} {id : StrongId idTag}
    {observed : Generation genTag} (h : t.isStale id observed = true) :
    (t.current id).valid = true :=
  (Bool.and_eq_true_iff.mp h).1

theorem advance_refused {t : GenerationTracker idTag genTag} {id : StrongId idTag}
    {next : Generation genTag} (h : (t.advance id next).2 = false) : (t.advance id next).1 = t := by
  rw [advance_eq] at h ⊢
  split_ifs at h ⊢
  rfl

theorem advance_accepted {t : GenerationTracker idTag genTag} {id : StrongId idTag}
    {next : Generation genTag} (h : (t.advance id next).2 = true) :
    (t.advance id next).1.current id = next := by
  rw [advance_eq] at h ⊢
  split_ifs at h ⊢
  rw [current_insert, if_pos rfl]

/-- A call leaves no generation behind exactly when it does not replace a valid one by
the invalid one. -/
theorem current_le_call_iff {t : GenerationTracker idTag genTag}
    {c : StrongId idTag × Generation genTag} :
    (∀ id, (t.current id).value ≤ ((t.call c).current id).value) ↔ OffersValid t c := by
  obtain ⟨id, next⟩ := c
  show (∀ id', (t.current id').value ≤ ((t.advance id next).1.current id').value) ↔
    next.valid = true ∨ (t.current id).valid = false
  cases hstale : t.isStale id next with
  | false =>
    -- The offered generation is not behind, so it is valid if the current one is.
    refine iff_of_true (fun id' => current_le_advance hstale id') ?_
    by_contra h
    rw [not_or, Bool.not_eq_false, Generation.valid_iff, Generation.valid_iff] at h
    rw [← Bool.not_eq_true, isStale_iff, UInt64.lt_iff_toNat_lt] at hstale
    omega
  | true =>
    rw [advance_eq, hstale, Bool.and_true, valid_of_isStale hstale]
    cases hnext : next.valid with
    | true => exact iff_of_true (fun id' => le_rfl) (Or.inl rfl)
    | false =>
      refine iff_of_false (fun h => ?_) (by simp)
      have hid := h id
      rw [if_neg Bool.false_ne_true, current_insert, if_pos rfl] at hid
      exact absurd (isStale_iff.mp hstale) (UInt64.not_lt.mpr hid)

theorem current_le_run {t : GenerationTracker idTag genTag}
    {calls : List (StrongId idTag × Generation genTag)} (h : Runs.Always call OffersValid t calls)
    (id : StrongId idTag) :
    (t.current id).value ≤ ((Runs.run call t calls).current id).value := by
  induction calls generalizing t with
  | nil => exact le_rfl
  | cons c calls ih => exact (current_le_call_iff.mpr h.1 id).trans (ih h.2)

theorem neverRegresses_iff_always {t : GenerationTracker idTag genTag}
    {calls : List (StrongId idTag × Generation genTag)} :
    NeverRegresses t calls ↔ Runs.Always call OffersValid t calls := by
  constructor
  · intro h
    rw [Runs.always_iff]
    intro before c after hcalls
    apply current_le_call_iff.mp
    have hle := h.current_le before [c] ⟨after, by rw [hcalls, List.append_assoc]; rfl⟩
    rwa [Runs.run_append] at hle
  · intro h
    have hle : ∀ before after, before ++ after <+: calls → ∀ id,
        ((Runs.run call t before).current id).value ≤
          ((Runs.run call t (before ++ after)).current id).value := by
      rintro before after ⟨rest, rfl⟩ id
      rw [Runs.always_append, Runs.always_append] at h
      rw [Runs.run_append]
      exact current_le_run h.1.2 id
    exact {
      current_le := hle
      refused := fun before c _ hrefused => by
        rw [Runs.run_append]
        exact advance_refused hrefused
      accepted := fun before c _ haccepted => by
        rw [Runs.run_append]
        exact advance_accepted haccepted
      stale := fun before after hcalls id observed hstale => by
        rw [isStale_iff] at hstale ⊢
        exact lt_of_lt_of_le hstale (hle before after hcalls id) }

theorem valid_current_call_iff {t : GenerationTracker idTag genTag}
    {c : StrongId idTag × Generation genTag} (h : OffersValid t c) (id : StrongId idTag) :
    ((t.call c).current id).valid = true ↔
      (t.current id).valid = true ∨ c.1 = id ∧ c.2.valid = true := by
  obtain ⟨id', next⟩ := c
  show ((t.advance id' next).1.current id).valid = true ↔
    (t.current id).valid = true ∨ id' = id ∧ next.valid = true
  cases hstale : t.isStale id' next with
  | false =>
    rw [current_advance hstale]
    by_cases hid : id = id'
    · subst hid
      rcases h with hnext | hcurrent
      · simp [show next.valid = true from hnext]
      · simp [show (t.current id).valid = false from hcurrent]
    · rw [if_neg hid, or_iff_left fun hother => hid hother.1.symm]
  | true =>
    -- The call is refused, and its id has a valid generation.
    have hcurrent := valid_of_isStale hstale
    have hnext : next.valid = true := h.resolve_right (by simp [hcurrent])
    rw [advance_eq, hstale, hnext, Bool.and_true, if_pos rfl]
    exact (or_iff_left_of_imp fun hid => hid.1 ▸ hcurrent).symm

/-- While no valid generation is replaced by the invalid one, an id has a valid one
exactly when one was offered for it. -/
theorem valid_current_run_iff {calls : List (StrongId idTag × Generation genTag)}
    (h : Runs.Always call OffersValid (∅ : GenerationTracker idTag genTag) calls)
    (id : StrongId idTag) :
    ((Runs.run call (∅ : GenerationTracker idTag genTag) calls).current id).valid = true ↔
      ∃ c ∈ calls, c.1 = id ∧ c.2.valid = true := by
  induction calls using List.reverseRecOn with
  | nil =>
    rw [Runs.run_nil, current_empty, Generation.valid_iff]
    simp [default]
  | append_singleton calls c ih =>
    obtain ⟨hcalls, hoffers, -⟩ := Runs.always_append.mp h
    rw [Runs.run_append, Runs.run_cons, Runs.run_nil, valid_current_call_iff hoffers, ih hcalls]
    simp [or_and_right, exists_or]

/-- A tracker never regresses exactly when, once a valid generation was offered for an
id, all that is offered for it is valid. -/
theorem neverRegresses_iff (calls : List (StrongId idTag × Generation genTag)) :
    NeverRegresses (∅ : GenerationTracker idTag genTag) calls ↔
      calls.Pairwise fun c c' => c.1 = c'.1 → c.2.valid = true → c'.2.valid = true := by
  rw [neverRegresses_iff_always]
  induction calls using List.reverseRecOn with
  | nil => exact iff_of_true trivial List.Pairwise.nil
  | append_singleton calls c ih =>
    rw [Runs.always_append, List.pairwise_append, ih]
    constructor
    · rintro ⟨hcalls, hoffers, -⟩
      refine ⟨hcalls, List.pairwise_singleton _ _, fun c' hc' d hd hid hvalid => ?_⟩
      obtain rfl := List.mem_singleton.mp hd
      apply hoffers.resolve_right
      have hcurrent := (valid_current_run_iff (ih.mpr hcalls) d.1).mpr ⟨c', hc', hid, hvalid⟩
      rw [hcurrent]
      exact Bool.true_eq_false_eq_False
    · rintro ⟨hcalls, -, hlater⟩
      refine ⟨hcalls, ?_, trivial⟩
      by_contra hoffers
      rw [OffersValid, not_or, Bool.not_eq_false] at hoffers
      obtain ⟨c', hc', hid, hvalid⟩ :=
        (valid_current_run_iff (ih.mpr hcalls) c.1).mp hoffers.2
      exact hoffers.1 (hlater c' hc' c (List.mem_singleton_self c) hid hvalid)

/-- The invalid generation takes back the fifth of a resource. -/
theorem invalid_takes_back :
    ¬ ∀ calls : List (ResourceId × ResourceGeneration),
      NeverRegresses (∅ : GenerationTracker .resource .resource) calls := by
  intro h
  have hle := (h [(⟨1⟩, ⟨5⟩), (⟨1⟩, ⟨0⟩)]).current_le [(⟨1⟩, ⟨5⟩)] [(⟨1⟩, ⟨0⟩)]
    List.prefix_rfl ⟨1⟩
  revert hle
  decide +kernel

end GenerationTracker

end CapacityFabric
