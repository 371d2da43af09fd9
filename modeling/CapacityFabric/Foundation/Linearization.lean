import CapacityFabric.Foundation.Runs
import Mathlib.Logic.Relation

/-!
# Linearization points

An object that many clients call at once answers as one that does one thing after the other
if each call takes effect at one instant before its answer.  The rule is a simulation: each
step of the system is explained by some calls, effects and answers of the serial object.
What was answered before another call then took effect before it.
-/

namespace Linearization

variable {S T E C X Y : Type*}

/-- What the clients of an object see. -/
inductive Visible (C X Y : Type*)
  | call (c : C) (x : X)
  | answer (c : C) (y : Y)
  deriving DecidableEq

def Visible.client : Visible C X Y → C
  | .call c _ | .answer c _ => c

/-- An object that does one thing after the other. -/
structure SerialObject (S C X Y : Type*) where
  init : S
  serves : S → C → X → Y → S → Prop
  /-- What the object does unasked. -/
  changes : S → S → Prop

def SerialObject.Goes (O : SerialObject S C X Y) (s s' : S) : Prop :=
  (∃ c x y, O.serves s c x y s') ∨ O.changes s s'

/-- What happens to a serial object and its clients. -/
inductive Mark (C X Y : Type*)
  | call (c : C) (x : X)
  | effect (c : C) (x : X) (y : Y)
  | change
  | answer (c : C) (y : Y)

def Mark.visible : Mark C X Y → Option (Visible C X Y)
  | .call c x => some (.call c x)
  | .answer c y => some (.answer c y)
  | _ => none

def seenOf (marks : List (Mark C X Y)) : List (Visible C X Y) := marks.filterMap Mark.visible

theorem forall_seenOf_cons {P : Visible C X Y → Prop} {k : Mark C X Y} {ks : List (Mark C X Y)} :
    (∀ v ∈ seenOf (k :: ks), P v) ↔ (∀ v ∈ k.visible, P v) ∧ ∀ v ∈ seenOf ks, P v := by
  rw [seenOf, List.filterMap_cons]
  cases k.visible with
  | none => simp [seenOf]
  | some v => simp [seenOf]

inductive Turn (X Y : Type*)
  | idle
  | called (x : X)
  | effected (y : Y)

section Accounts

variable [DecidableEq C] {O : SerialObject S C X Y}

/-- The object goes on, each client in its turn. -/
inductive Follows (O : SerialObject S C X Y) :
    S × (C → Turn X Y) → Mark C X Y → S × (C → Turn X Y) → Prop
  | call {s : S} {turns : C → Turn X Y} {c : C} (h : turns c = .idle) (x : X) :
      Follows O (s, turns) (.call c x) (s, Function.update turns c (.called x))
  | effect {s s' : S} {turns : C → Turn X Y} {c : C} {x : X} (h : turns c = .called x) {y : Y}
      (hserves : O.serves s c x y s') :
      Follows O (s, turns) (.effect c x y) (s', Function.update turns c (.effected y))
  | change {s s' : S} {turns : C → Turn X Y} (h : O.changes s s') :
      Follows O (s, turns) .change (s', turns)
  | answer {s : S} {turns : C → Turn X Y} {c : C} {y : Y} (h : turns c = .effected y) :
      Follows O (s, turns) (.answer c y) (s, Function.update turns c .idle)

inductive Account (O : SerialObject S C X Y) :
    S × (C → Turn X Y) → List (Mark C X Y) → S × (C → Turn X Y) → Prop
  | nil (p : S × (C → Turn X Y)) : Account O p [] p
  | cons {p q r : S × (C → Turn X Y)} {k : Mark C X Y} {ks : List (Mark C X Y)}
      (h : Follows O p k q) (hrest : Account O q ks r) : Account O p (k :: ks) r

/-- What the clients see can be told of the serial object. -/
def Linearizable (O : SerialObject S C X Y) (seen : List (Visible C X Y)) : Prop :=
  ∃ marks p, Account O (O.init, fun _ => .idle) marks p ∧ seenOf marks = seen

variable {p q r : S × (C → Turn X Y)} {k : Mark C X Y} {ks ks' : List (Mark C X Y)} {c c' : C}
  {x x' : X} {y y' : Y}

theorem Account.single (h : Follows O p k q) : Account O p [k] q := .cons h (.nil q)

theorem account_append :
    Account O p (ks ++ ks') r ↔ ∃ q, Account O p ks q ∧ Account O q ks' r := by
  induction ks generalizing p with
  | nil =>
    refine ⟨fun h => ⟨p, .nil p, h⟩, fun ⟨q, hnil, h⟩ => ?_⟩
    cases hnil
    exact h
  | cons k ks ih =>
    refine ⟨fun h => ?_, fun ⟨q, hks, h⟩ => ?_⟩
    · cases h with
      | cons hk hrest =>
        obtain ⟨q, hks, h⟩ := ih.mp hrest
        exact ⟨q, .cons hk hks, h⟩
    · cases hks with
      | cons hk hrest => exact .cons hk (ih.mpr ⟨q, hrest, h⟩)

def history (step : T → E → T) (seen : T → E → List (Visible C X Y)) :
    T → List E → List (Visible C X Y)
  | _, [] => []
  | t, e :: es => seen t e ++ history step seen (step t e) es

/-- A relation to the serial object that every step keeps explains every run. -/
theorem exists_account_of_simulation {step : T → E → T} {seen : T → E → List (Visible C X Y)}
    (R : T → S × (C → Turn X Y) → Prop)
    (hstep : ∀ t e p, R t p → ∃ marks q, Account O p marks q ∧ seenOf marks = seen t e ∧
      R (step t e) q) {t : T} (h0 : R t p) (es : List E) :
    ∃ marks q, Account O p marks q ∧ seenOf marks = history step seen t es ∧
      R (Runs.run step t es) q := by
  induction es generalizing t p with
  | nil => exact ⟨[], p, .nil p, rfl, h0⟩
  | cons e es ih =>
    obtain ⟨marks, q, hmarks, hseen, hR⟩ := hstep t e p h0
    obtain ⟨marks', r, hmarks', hrest, hend⟩ := ih hR
    refine ⟨marks ++ marks', r, account_append.mpr ⟨q, hmarks, hmarks'⟩, ?_, hend⟩
    rw [seenOf, List.filterMap_append]
    exact congrArg₂ (· ++ ·) hseen hrest

/-- The object alone. -/
theorem Account.goes (h : Account O p ks q) : Relation.ReflTransGen O.Goes p.1 q.1 := by
  induction h with
  | nil => exact .refl
  | cons hk _ ih =>
    cases hk with
    | call | answer => exact ih
    | effect _ hserves => exact .head (Or.inl ⟨_, _, _, hserves⟩) ih
    | change hchanges => exact .head (Or.inr hchanges) ih

/-- The turn of a client that is neither called nor answered changes by an effect only. -/
theorem Follows.turn_cases (h : Follows O p k q) (hk : ∀ v ∈ k.visible, v.client ≠ c) :
    q.2 c = p.2 c ∨ ∃ x y, k = .effect c x y ∧ p.2 c = .called x ∧ q.2 c = .effected y ∧
      O.serves p.1 c x y q.1 := by
  cases h with
  | call | answer => exact Or.inl (Function.update_of_ne (hk _ rfl).symm _ _)
  | change => exact Or.inl rfl
  | @effect _ _ _ c' x hcalled y hserves =>
    by_cases hc : c = c'
    · subst hc
      exact Or.inr ⟨x, y, rfl, hcalled, Function.update_self .., hserves⟩
    · exact Or.inl (Function.update_of_ne hc _ _)

/-- What has taken effect waits for its answer. -/
theorem Account.effected (h : Account O p ks q) (hp : p.2 c = .effected y)
    (hks : ∀ v ∈ seenOf ks, v.client ≠ c) : q.2 c = .effected y := by
  induction h with
  | nil => exact hp
  | cons hk _ ih =>
    obtain ⟨hone, hrest⟩ := forall_seenOf_cons.mp hks
    refine ih ?_ hrest
    rcases hk.turn_cases hone with hsame | ⟨x, y', -, hcalled, -, -⟩
    · rw [hsame, hp]
    · rw [hp] at hcalled
      cases hcalled

/-- A call takes effect before it is answered. -/
theorem Account.exists_effect (h : Account O p ks q) (hp : p.2 c = .called x)
    (hks : ∀ v ∈ seenOf ks, v.client ≠ c) (hq : q.2 c = .effected y) :
    ∃ before after p' q', ks = before ++ .effect c x y :: after ∧ Account O p before p' ∧
      O.serves p'.1 c x y q'.1 ∧ Account O q' after q := by
  induction h with
  | nil =>
    rw [hp] at hq
    cases hq
  | @cons p p₁ q k ks hk hrest ih =>
    obtain ⟨hone, hmore⟩ := forall_seenOf_cons.mp hks
    rcases hk.turn_cases hone with hsame | ⟨x', y', rfl, hcalled, heffected, hserves⟩
    · obtain ⟨before, after, p', q', rfl, hbefore, hserves, hafter⟩ :=
        ih (hsame.trans hp) hmore hq
      exact ⟨k :: before, after, p', q', rfl, .cons hk hbefore, hserves, hafter⟩
    · obtain rfl := Turn.called.inj (hp.symm.trans hcalled)
      obtain rfl := Turn.effected.inj (hq.symm.trans (hrest.effected heffected hmore))
      exact ⟨[], ks, p, p₁, rfl, .nil p, hserves, hrest⟩

/-- An answered call in what the clients see, with the instant at which it took effect. -/
theorem Account.of_answered {before between after : List (Visible C X Y)}
    (h : Account O p ks q)
    (hseen : seenOf ks = before ++ .call c x :: (between ++ .answer c y :: after))
    (hbetween : ∀ v ∈ between, v.client ≠ c) :
    ∃ (p' q' : S × (C → Turn X Y)) (ks' : List (Mark C X Y)) (between' : List (Visible C X Y)),
      Relation.ReflTransGen O.Goes p.1 p'.1 ∧ O.serves p'.1 c x y q'.1 ∧
      Account O q' ks' q ∧ seenOf ks' = between' ++ .answer c y :: after := by
  obtain ⟨ks₁, rest, rfl, -, hseen⟩ := List.filterMap_eq_append_iff.mp hseen
  obtain ⟨own₁, call, rest, rfl, hown₁, hcall, hseen⟩ := List.filterMap_eq_cons_iff.mp hseen
  obtain ⟨ks₂, rest, rfl, hks₂, hseen⟩ := List.filterMap_eq_append_iff.mp hseen
  obtain ⟨own₂, answer, rest, rfl, hown₂, hanswer, hafter⟩ := List.filterMap_eq_cons_iff.mp hseen
  obtain ⟨p₁, hp₁, h⟩ := account_append.mp h
  obtain ⟨p₂, hp₂, h⟩ := account_append.mp h
  cases h with
  | @cons _ p₃ _ _ _ hcalls h =>
    rw [← List.append_assoc] at h
    obtain ⟨p₄, hp₄, h⟩ := account_append.mp h
    cases h with
    | @cons _ p₅ _ _ _ hanswers hrest =>
      have hcalled : p₃.2 c = .called x := by
        cases hcalls <;> cases hcall
        exact Function.update_self ..
      have heffected : p₄.2 c = .effected y := by
        cases hanswers <;> cases hanswer
        assumption
      have hquiet : ∀ v ∈ seenOf (ks₂ ++ own₂), v.client ≠ c := by
        rw [seenOf, List.filterMap_append, hks₂, List.filterMap_eq_nil_iff.mpr hown₂,
          List.append_nil]
        exact hbetween
      obtain ⟨ks₃, ks₄, p', q', -, hks₃, hserves, hks₄⟩ :=
        hp₄.exists_effect hcalled hquiet heffected
      refine ⟨p', q', ks₄ ++ answer :: rest, seenOf ks₄, ?_, hserves,
        account_append.mpr ⟨p₄, hks₄, .cons hanswers hrest⟩, ?_⟩
      · exact hp₁.goes.trans (hp₂.goes.trans ((Account.single hcalls).goes.trans hks₃.goes))
      · rw [seenOf, List.filterMap_append, List.filterMap_cons, hanswer, hafter]
        rfl

/-- A call that is made after another was answered takes effect after it. -/
theorem Linearizable.in_order {h₁ h₂ h₃ h₄ h₅ : List (Visible C X Y)}
    (h : Linearizable O (h₁ ++ .call c x :: (h₂ ++ .answer c y ::
      (h₃ ++ .call c' x' :: (h₄ ++ .answer c' y' :: h₅)))))
    (h₂c : ∀ v ∈ h₂, v.client ≠ c) (h₄c : ∀ v ∈ h₄, v.client ≠ c') :
    ∃ s₁ s₂ s₃ s₄, Relation.ReflTransGen O.Goes O.init s₁ ∧ O.serves s₁ c x y s₂ ∧
      Relation.ReflTransGen O.Goes s₂ s₃ ∧ O.serves s₃ c' x' y' s₄ := by
  obtain ⟨marks, p, hmarks, hseen⟩ := h
  obtain ⟨p₁, p₂, marks', between, hbefore, hserves, hmarks', hseen'⟩ :=
    hmarks.of_answered hseen h₂c
  rw [← List.cons_append, ← List.append_assoc] at hseen'
  obtain ⟨p₃, p₄, -, -, hbetween, hserves', -, -⟩ := hmarks'.of_answered hseen' h₄c
  exact ⟨p₁.1, p₂.1, p₃.1, p₄.1, hbefore, hserves, hbetween, hserves'⟩

end Accounts

end Linearization
