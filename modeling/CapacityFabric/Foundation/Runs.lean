import Mathlib.Tactic

/-!
# Runs of a state machine

States reached by finitely many steps, properties of every step of a run, and
the rule that carries an equivalence of step properties through a run on an
invariant.
-/

namespace Runs

variable {S A : Type*} {step : S → A → S} {init : S}

def run (step : S → A → S) (s : S) (as : List A) : S := as.foldl step s

/-- The states reached from `init`. -/
inductive Reachable (step : S → A → S) (init : S) : S → Prop
  | init : Reachable step init init
  | step {s : S} (a : A) : Reachable step init s → Reachable step init (step s a)

/-- `P` holds of the state and the action of every step of the run. -/
def Always (step : S → A → S) (P : S → A → Prop) : S → List A → Prop
  | _, [] => True
  | s, a :: as => P s a ∧ Always step P (step s a) as

@[simp] theorem run_nil (s : S) : run step s [] = s := rfl

@[simp] theorem run_cons (s : S) (a : A) (as : List A) :
    run step s (a :: as) = run step (step s a) as := rfl

theorem run_append (s : S) (as bs : List A) :
    run step s (as ++ bs) = run step (run step s as) bs :=
  List.foldl_append

theorem Reachable.run {s : S} (h : Reachable step init s) (as : List A) :
    Reachable step init (run step s as) := by
  induction as generalizing s with
  | nil => exact h
  | cons a as ih => exact ih (h.step a)

/-- An invariant of the initial state that every step keeps holds when reachable. -/
theorem Reachable.invariant {Inv : S → Prop} (h0 : Inv init)
    (hstep : ∀ s a, Inv s → Inv (step s a)) {s : S} (h : Reachable step init s) : Inv s := by
  induction h with
  | init => exact h0
  | step a _ ih => exact hstep _ a ih

theorem always_iff {P : S → A → Prop} {s : S} {as : List A} :
    Always step P s as ↔
      ∀ before a after, as = before ++ a :: after → P (run step s before) a := by
  induction as generalizing s with
  | nil => simp [Always]
  | cons a as ih =>
    rw [Always, ih]
    constructor
    · rintro ⟨h, hrest⟩ before b after he
      cases before with
      | nil => exact (List.cons.inj he).1 ▸ h
      | cons c before =>
        obtain ⟨rfl, htail⟩ := List.cons.inj he
        exact hrest before b after htail
    · intro h
      exact ⟨h [] a as rfl, fun before b after he => h (a :: before) b after (he ▸ rfl)⟩

theorem always_append {P : S → A → Prop} {s : S} {as bs : List A} :
    Always step P s (as ++ bs) ↔ Always step P s as ∧ Always step P (run step s as) bs := by
  induction as generalizing s with
  | nil => exact (and_iff_right trivial).symm
  | cons a as ih =>
    show P s a ∧ Always step P (step s a) (as ++ bs) ↔ _
    rw [ih, ← and_assoc]
    rfl

theorem always_true (s : S) (as : List A) : Always step (fun _ _ => True) s as :=
  always_iff.mpr fun _ _ _ _ => trivial

/-- Two step properties that agree wherever an invariant holds agree on runs whose
steps all have `R`, if the steps that have the second keep the invariant. -/
theorem always_congr {R P Q : S → A → Prop} (Inv : S → Prop)
    (hiff : ∀ s a, Inv s → R s a → (P s a ↔ Q s a))
    (hstep : ∀ s a, Inv s → R s a → Q s a → Inv (step s a))
    {s : S} {as : List A} (hs : Inv s) (hR : Always step R s as) :
    Always step P s as ↔ Always step Q s as := by
  induction as generalizing s with
  | nil => exact Iff.rfl
  | cons a as ih =>
    obtain ⟨hRa, hR⟩ := hR
    constructor
    · rintro ⟨hP, hrest⟩
      have hQ := (hiff s a hs hRa).mp hP
      exact ⟨hQ, (ih (hstep s a hs hRa hQ) hR).mp hrest⟩
    · rintro ⟨hQ, hrest⟩
      exact ⟨(hiff s a hs hRa).mpr hQ, (ih (hstep s a hs hRa hQ) hR).mpr hrest⟩

/-- A state property holds along a run when it holds at first and after every step. -/
theorem forall_prefix_iff {φ : S → Prop} {s : S} {as : List A} :
    (∀ before, before <+: as → φ (run step s before)) ↔
      φ s ∧ Always step (fun s a => φ (step s a)) s as := by
  rw [always_iff]
  constructor
  · intro h
    refine ⟨h [] List.nil_prefix, fun before a after he => ?_⟩
    have := h (before ++ [a]) ⟨after, by simp [he]⟩
    rwa [run_append] at this
  · rintro ⟨hs, h⟩ before ⟨after, rfl⟩
    rcases List.eq_nil_or_concat' before with rfl | ⟨before, a, rfl⟩
    · exact hs
    · rw [run_append]
      exact h before a after (by simp)

/-- What a step keeps exactly under its condition holds along a run exactly when all of its
steps meet theirs. -/
theorem forall_prefix_iff_always {φ : S → Prop} {R Q : S → A → Prop}
    (hstep : ∀ s a, φ s → R s a → (φ (step s a) ↔ Q s a)) {s : S} {as : List A} (hs : φ s)
    (hR : Always step R s as) :
    (∀ before, before <+: as → φ (run step s before)) ↔ Always step Q s as := by
  have hcongr := always_congr φ hstep (fun s a h hRa hQ => (hstep s a h hRa).mpr hQ) hs hR
  rw [forall_prefix_iff, hcongr]
  exact and_iff_right hs

end Runs
