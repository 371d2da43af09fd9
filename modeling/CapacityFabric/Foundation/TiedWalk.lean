import CapacityFabric.Foundation.ClampedSum
import CapacityFabric.Foundation.OptionalMin
import CapacityFabric.Foundation.TieOrder

/-!
# Walks over tied changes

Changes at instants, applied in the order of a sort that leaves ties as it likes.
What is there after an instant, and the lowest amount that a walk meets on its way,
may tell two orders of ties apart.  `TieAgrees` says of one instant when they do not.
-/

namespace TiedWalk

open ClampedSum OptionalMin SortBy

section Clamped

variable {K : Type*} [Field K] [LinearOrder K]

/-- The amount after a change, clamped at zero and absent when it is zero. -/
def bump (o : Option K) (v : K) : Option K :=
  if max (o.getD 0 + v) 0 = 0 then none else some (max (o.getD 0 + v) 0)

/-- The lowest amount from the first increase on, where there is nothing before. -/
def lowestRise : List K → K
  | [] => 0
  | v :: l => if 0 < v then max (v - overdraft 0 l) 0 else lowestRise l

theorem getD_bump (o : Option K) (v : K) : (bump o v).getD 0 = max (o.getD 0 + v) 0 := by
  unfold bump
  split_ifs with h
  · exact h.symm
  · rfl

theorem getD_foldl_bump (o : Option K) (l : List K) :
    (l.foldl bump o).getD 0 = clampedSum (o.getD 0) l := by
  induction l generalizing o with
  | nil => rfl
  | cons v l ih => rw [List.foldl_cons, ih, getD_bump, clampedSum, clampedSum, List.foldl_cons]

/-- What changes leave is there exactly where it is not zero. -/
theorem foldl_bump_eq (o : Option K) {l : List K} (hl : l ≠ []) :
    l.foldl bump o =
      if clampedSum (o.getD 0) l = 0 then none else some (clampedSum (o.getD 0) l) := by
  obtain ⟨l, v, rfl⟩ := List.eq_nil_or_concat' l |>.resolve_left hl
  rw [List.foldl_append, List.foldl_cons, List.foldl_nil, bump, getD_foldl_bump,
    clampedSum_concat]

variable [IsStrictOrderedRing K]

/-- A step goes below what has been met only if the plain total goes below its deepest dip. -/
theorem lowest_step (x dip sum v : K) :
    min (max (x - dip) 0) (max (x + sum + max (dip - x) 0 + v) 0) =
      max (x - max dip (-(0 + sum + v))) 0 := by
  rcases le_total dip x with hle | hle
  · -- Nothing has been clamped so far.
    have hlast : x - -(0 + sum + v) = x + sum + 0 + v := by ring
    rw [max_eq_right (sub_nonpos.mpr hle), ← max_min_distrib_right, ← min_sub_sub_left, hlast]
  · -- Something has, so that zero has been met.
    have hdeep : x - max dip (-(0 + sum + v)) ≤ 0 :=
      sub_nonpos.mpr (hle.trans (le_max_left _ _))
    rw [max_eq_right (sub_nonpos.mpr hle), max_eq_right hdeep, min_eq_left (le_max_right _ _)]

/-- The lowest amount of a walk from something falls short of it by the deepest dip of the
plain total. -/
theorem foldl_lowStep_some {a : K} {o : Option K} (ha : a ≤ o.getD 0) (ho : 0 ≤ o.getD 0)
    (l : List K) :
    (l.foldl (lowStep bump) (some a, o)).1 =
      some (min a (max (o.getD 0 - overdraft 0 l) 0)) := by
  induction l using List.reverseRecOn with
  | nil => rw [overdraft_nil, sub_zero, max_eq_left ho, min_eq_left ha]; rfl
  | append_singleton l v ih =>
    have hcurrent : (l.foldl (lowStep bump) (some a, o)).2.getD 0 = clampedSum (o.getD 0) l := by
      rw [snd_foldl_lowStep, getD_foldl_bump]
    rw [List.foldl_append, List.foldl_cons, List.foldl_nil, lowStep, ih, leftMin_some, getD_bump,
      hcurrent, min_assoc, overdraft_concat, clampedSum_eq, overdraft_eq_max ho, lowest_step]

theorem foldl_lowStep_none (l : List K) :
    (l.foldl (lowStep bump) (none, none)).1 =
      if ∃ v ∈ l, 0 < v then some (lowestRise l) else none := by
  induction l with
  | nil => simp
  | cons v l ih =>
    rw [List.foldl_cons, lowStep, leftMin_none, lowestRise]
    rcases lt_or_ge 0 v with hv | hv
    · have hrise : bump none v = some v := by simp [bump, hv.le, hv.ne']
      have hex : ∃ u ∈ v :: l, 0 < u := ⟨v, List.mem_cons_self, hv⟩
      have hlow : max (v - overdraft 0 l) 0 ≤ v :=
        max_le (sub_le_self v (overdraft_nonneg 0 l)) hv.le
      have hwalk := foldl_lowStep_some (o := some v) le_rfl hv.le l
      rw [Option.getD_some, min_eq_right hlow] at hwalk
      rw [hrise, if_pos hv, if_pos hex, hwalk]
    · have hnone : bump none v = none := by simp [bump, hv]
      have hex : (∃ u ∈ v :: l, 0 < u) ↔ ∃ u ∈ l, 0 < u := by simp [hv.not_gt]
      rw [hnone, ih, if_neg hv.not_gt]
      simp only [hex]

omit [IsStrictOrderedRing K] in
theorem lowestRise_eq_zero {l : List K} (h : ∀ v ∈ l, v ≤ 0) : lowestRise l = 0 := by
  induction l with
  | nil => rfl
  | cons v l ih =>
    obtain ⟨hv, hl⟩ := List.forall_mem_cons.mp h
    rw [lowestRise, if_neg hv.not_gt, ih hl]

theorem getD_foldl_lowStep_none (l : List K) :
    (l.foldl (lowStep bump) (none, none)).1.getD 0 = lowestRise l := by
  rw [foldl_lowStep_none]
  split_ifs with h
  · rfl
  · exact (lowestRise_eq_zero fun v hv => not_lt.mp fun hpos => h ⟨v, hv, hpos⟩).symm

end Clamped

section Tie

variable {K : Type*} [Field K] [LinearOrder K] {f : Option K → K → Option K}

variable (f) in
/-- The steps of a walk leave what the clamped sums are. -/
def Follows : Option K → List K → Prop
  | _, [] => True
  | o, v :: l => f o v = bump o v ∧ Follows (bump o v) l

theorem Follows.foldl_eq {o : Option K} {l : List K} (h : Follows f o l) :
    l.foldl f o = l.foldl bump o := by
  induction l generalizing o with
  | nil => rfl
  | cons v l ih => rw [List.foldl_cons, List.foldl_cons, h.1, ih h.2]

theorem Follows.foldl_lowStep_eq {m o : Option K} {l : List K} (h : Follows f o l) :
    l.foldl (lowStep f) (m, o) = l.foldl (lowStep bump) (m, o) := by
  induction l generalizing m o with
  | nil => rfl
  | cons v l ih =>
    have hstep : lowStep f (m, o) v = lowStep bump (m, o) v := by rw [lowStep, lowStep, h.1]
    rw [List.foldl_cons, List.foldl_cons, hstep, lowStep]
    exact ih h.2

variable (f) in
/-- Two orders of the same changes are the same one, or both are added up exactly. -/
def SameOrExact (o : Option K) (l l' : List K) : Prop := l = l' ∨ Follows f o l ∧ Follows f o l'

/-- The plain totals of both orders dip equally deep, and where there is nothing before,
the lowest amount from the first increase on is the same. -/
def DipsAgree (o : Option K) (l l' : List K) : Prop :=
  overdraft 0 l = overdraft 0 l' ∧ (o = none → lowestRise l = lowestRise l')

variable (f) in
/-- Two orders of changes at one instant make no difference.  A window begins with what is
there after its start, so that at the first instant of all only the end matters. -/
def TieAgrees (first : Prop) (o : Option K) (l l' : List K) : Prop :=
  l = l' ∨ Follows f o l ∧ Follows f o l' ∧
    (first → overdraft (o.getD 0) l = overdraft (o.getD 0) l') ∧ (¬first → DipsAgree o l l')

instance decidableFollows : ∀ (o : Option K) (l : List K), Decidable (Follows f o l)
  | _, [] => isTrue trivial
  | o, v :: l =>
    have := decidableFollows (bump o v) l
    inferInstanceAs (Decidable (_ ∧ _))

instance (o : Option K) (l l' : List K) : Decidable (DipsAgree o l l') :=
  inferInstanceAs (Decidable (_ ∧ _))

instance (first : Prop) [Decidable first] (o : Option K) (l l' : List K) :
    Decidable (TieAgrees f first o l l') :=
  inferInstanceAs (Decidable (_ ∨ _))

variable [IsStrictOrderedRing K] {first : Prop} {o m : Option K} {l l' : List K}

theorem TieAgrees.overdraft_eq (ho : 0 ≤ o.getD 0)
    (h : (first → overdraft (o.getD 0) l = overdraft (o.getD 0) l') ∧
      (¬first → DipsAgree o l l')) :
    overdraft (o.getD 0) l = overdraft (o.getD 0) l' := by
  by_cases hfirst : first
  · exact h.1 hfirst
  · rw [overdraft_eq_max ho, overdraft_eq_max ho, (h.2 hfirst).1]

theorem TieAgrees.foldl_eq (h : TieAgrees f first o l l') (ho : 0 ≤ o.getD 0)
    (hperm : l.Perm l') : l.foldl f o = l'.foldl f o := by
  rcases h with rfl | ⟨hl, hl', hdips⟩
  · rfl
  rw [hl.foldl_eq, hl'.foldl_eq]
  rcases eq_or_ne l [] with rfl | hne
  · rw [hperm.symm.eq_nil]
  · have hne' : l' ≠ [] := fun hnil => hne (hnil ▸ hperm).eq_nil
    rw [foldl_bump_eq o hne, foldl_bump_eq o hne', clampedSum_eq, clampedSum_eq, hperm.sum_eq,
      TieAgrees.overdraft_eq ho hdips]

/-- A window that reaches the instant meets the same lowest amount in either order. -/
theorem TieAgrees.foldl_lowStep_eq (h : TieAgrees f first o l l') (hfirst : ¬first)
    (ho : 0 ≤ o.getD 0) (hm : Below m o) (hperm : l.Perm l') :
    l.foldl (lowStep f) (m, o) = l'.foldl (lowStep f) (m, o) := by
  apply Prod.ext
  swap
  · rw [snd_foldl_lowStep, snd_foldl_lowStep]
    exact h.foldl_eq ho hperm
  rcases h with rfl | ⟨hl, hl', -, hdips⟩
  · rfl
  obtain ⟨hdip, hrise⟩ := hdips hfirst
  rw [hl.foldl_lowStep_eq, hl'.foldl_lowStep_eq]
  cases m with
  | some a =>
    have ha : a ≤ o.getD 0 := hm.2
    rw [foldl_lowStep_some ha ho, foldl_lowStep_some ha ho, hdip]
  | none =>
    obtain rfl := hm.1 rfl
    have hmem : (∃ v ∈ l, 0 < v) ↔ ∃ v ∈ l', 0 < v :=
      exists_congr fun v => and_congr_left' hperm.mem_iff
    rw [foldl_lowStep_none, foldl_lowStep_none, hrise rfl]
    simp only [hmem]

/-- Two orders that leave the same behind, and of which a window meets the same lowest
amount, agree. -/
theorem tieAgrees_of_eq (h : SameOrExact f o l l') (ho : 0 ≤ o.getD 0) (hperm : l.Perm l')
    (hend : (l.foldl f o).getD 0 = (l'.foldl f o).getD 0)
    (hlow : ¬first → (l.foldl (lowStep f) (o, o)).1.getD 0 =
      (l'.foldl (lowStep f) (o, o)).1.getD 0) : TieAgrees f first o l l' := by
  refine h.imp_right fun ⟨hl, hl'⟩ => ⟨hl, hl', ?_⟩
  have hforgiven : overdraft (o.getD 0) l = overdraft (o.getD 0) l' := by
    rw [hl.foldl_eq, hl'.foldl_eq, getD_foldl_bump, getD_foldl_bump, clampedSum_eq, clampedSum_eq,
      hperm.sum_eq] at hend
    exact add_left_cancel hend
  refine ⟨fun _ => hforgiven, fun hfirst => ?_⟩
  have hlow := hlow hfirst
  rw [hl.foldl_lowStep_eq, hl'.foldl_lowStep_eq] at hlow
  cases o with
  | none =>
    rw [getD_foldl_lowStep_none, getD_foldl_lowStep_none] at hlow
    exact ⟨hforgiven, fun _ => hlow⟩
  | some x =>
    refine ⟨?_, nofun⟩
    -- What is left of `x` at the lowest and what is forgiven add up to the dip.
    have hdip : ∀ k : List K, overdraft 0 k = x + overdraft x k -
        (k.foldl (lowStep bump) (some x, some x)).1.getD 0 := by
      intro k
      have hx : 0 ≤ x := ho
      have hlow := foldl_lowStep_some (o := some x) le_rfl hx k
      rw [Option.getD_some] at hlow
      rw [hlow, Option.getD_some, min_eq_right (max_le (sub_le_self x (overdraft_nonneg 0 k)) hx),
        overdraft_eq_max hx]
      rcases le_total (overdraft 0 k) x with hle | hle
      · rw [max_eq_right (sub_nonpos.mpr hle), max_eq_left (sub_nonneg.mpr hle)]
        ring
      · rw [max_eq_left (sub_nonneg.mpr hle), max_eq_right (sub_nonpos.mpr hle)]
        ring
    rw [hdip, hdip, hlow]
    exact congrArg (x + · - _) hforgiven

end Tie

section Walks

variable {α T K : Type*} [LinearOrder T]
variable (key : α → T) (δ : α → Option K) (f : Option K → K → Option K)

/-- What is there after the changes of the items. -/
def reached (o : Option K) (es : List α) : Option K := (es.filterMap δ).foldl f o

def ties (t : T) (es : List α) : List K := (es.filter fun e => key e = t).filterMap δ

section Window

variable [LinearOrder K] [Zero K] (start : T) (o : Option K) (es : List α)

/-- A walk from what is there after `start`, with the lowest amount on its way. -/
def walkAfter (x : Option K) (es : List α) : Option K × Option K :=
  ((es.filter fun e => start < key e).filterMap δ).foldl (lowStep f) (x, x)

/-- The lowest amount of a window, which begins with what is there after `start`. -/
def windowLow (inside : T → Bool) : Option K :=
  (walkAfter key δ f start (reached δ f o (es.filter fun e => key e ≤ start))
    (es.filter fun e => inside (key e))).1

end Window

variable {key δ f}

theorem reached_append (o : Option K) (es fs : List α) :
    reached δ f o (es ++ fs) = reached δ f (reached δ f o es) fs := by
  rw [reached, List.filterMap_append, List.foldl_append]
  rfl

theorem perm_ties {es es' : List α} (hperm : es.Perm es') (t : T) :
    (ties key δ t es).Perm (ties key δ t es') :=
  (hperm.filter _).filterMap _

variable {es es' : List α} (hes : es.Pairwise fun a b => key a ≤ key b)
  (hes' : es'.Pairwise fun a b => key a ≤ key b) (hperm : es.Perm es') (o : Option K)

include hes in
theorem reached_le (t : T) : reached δ f o (es.filter fun e => key e ≤ t) =
    (ties key δ t es).foldl f (reached δ f o (es.filter fun e => key e < t)) := by
  rw [filter_le_eq_append hes, reached_append]
  rfl

include hes in
theorem walkAfter_le [LinearOrder K] [Zero K] {start t : T} (ht : start < t) (x : Option K) :
    walkAfter key δ f start x (es.filter fun e => key e ≤ t) =
      (ties key δ t es).foldl (lowStep f)
        (walkAfter key δ f start x (es.filter fun e => key e < t)) := by
  have hties : (es.filter fun e => key e = t).filter (fun e => start < key e) =
      es.filter fun e => key e = t :=
    List.filter_eq_self.mpr fun e he =>
      decide_eq_true (ht.trans_eq (of_decide_eq_true (List.mem_filter.mp he).2).symm)
  rw [walkAfter, filter_le_eq_append hes, List.filter_append, hties, List.filterMap_append,
    List.foldl_append]
  rfl

theorem walkAfter_of_le [LinearOrder K] [Zero K] {start t : T} (ht : t ≤ start) (x : Option K) :
    walkAfter key δ f start x (es.filter fun e => key e ≤ t) = (x, x) := by
  have hnone : (es.filter fun e => key e ≤ t).filter (fun e => start < key e) = [] :=
    List.filter_eq_nil_iff.mpr fun e he => by
      simpa using (of_decide_eq_true (List.mem_filter.mp he).2).trans ht
  rw [walkAfter, hnone]
  rfl

theorem below_walkAfter [LinearOrder K] [Zero K] (start : T) (x : Option K) (es : List α) :
    Below (walkAfter key δ f start x es).1 (walkAfter key δ f start x es).2 :=
  below_foldl_lowStep ⟨id, le_rfl⟩ _

include hes in
theorem snd_walkAfter [LinearOrder K] [Zero K] {start t : T} (ht : start < t) :
    (walkAfter key δ f start (reached δ f o (es.filter fun e => key e ≤ start))
        (es.filter fun e => key e < t)).2 = reached δ f o (es.filter fun e => key e < t) := by
  have hsplit : (es.filter fun e => key e < t) = (es.filter fun e => key e ≤ start) ++
      (es.filter fun e => key e < t).filter fun e => start < key e := by
    refine (filter_eq_append hes (p := fun e => decide (key e ≤ start))
      (fun a b hab hb => by simpa using hab.trans (by simpa using hb))
      fun a ha => by simpa using (of_decide_eq_true ha).trans_lt ht).trans ?_
    rw [List.filter_filter]
    congr 1
    refine List.filter_congr fun e _ => ?_
    rw [← decide_not, Bool.and_comm, decide_eq_decide.mpr not_le]
  rw [walkAfter, snd_foldl_lowStep]
  conv_rhs => rw [hsplit, reached_append]
  rfl

end Walks

section Agree

variable {α T K : Type*} [LinearOrder T] [Field K] [LinearOrder K]
variable {key : α → T} {δ : α → Option K} {f : Option K → K → Option K}
variable {bottom : T} {o : Option K} {es es' : List α}

variable (key δ f) in
def TiesAgree (bottom : T) (o : Option K) (es es' : List α) : Prop :=
  ∀ t, TieAgrees f (t = bottom) (reached δ f o (es.filter fun e => key e < t))
    (ties key δ t es) (ties key δ t es')

variable (key δ f) in
/-- At every instant the ties come in one order, or both orders are added up exactly. -/
def TiesSameOrExact (o : Option K) (es es' : List α) : Prop :=
  ∀ t, SameOrExact f (reached δ f o (es.filter fun e => key e < t)) (ties key δ t es)
    (ties key δ t es')

theorem getD_reached_nonneg (hf : ∀ o v, 0 ≤ o.getD 0 → 0 ≤ (f o v).getD 0)
    (ho : 0 ≤ o.getD 0) (es : List α) : 0 ≤ (reached δ f o es).getD 0 := by
  unfold reached
  induction es.filterMap δ generalizing o with
  | nil => exact ho
  | cons v l ih => exact ih (hf o v ho)

variable [IsStrictOrderedRing K] (hf : ∀ o v, 0 ≤ o.getD 0 → 0 ≤ (f o v).getD 0)
  (ho : 0 ≤ o.getD 0) (hes : es.Pairwise fun a b => key a ≤ key b)
  (hes' : es'.Pairwise fun a b => key a ≤ key b) (hperm : es.Perm es')

include hf ho hes hes' hperm

theorem TiesAgree.reached_eq (h : TiesAgree key δ f bottom o es es') (p : T → Bool)
    (hp : ∀ s t, s ≤ t → p t = true → p s = true) :
    reached δ f o (es.filter fun e => p (key e)) =
      reached δ f o (es'.filter fun e => p (key e)) := by
  refine eq_of_ties (reached δ f o) hperm (fun t hbefore => ?_) p hp
  rw [reached_le hes, reached_le hes', ← hbefore]
  exact (h t).foldl_eq (getD_reached_nonneg hf ho _) (perm_ties hperm t)

/-- No window tells two orders apart whose ties agree. -/
theorem TiesAgree.windowLow_eq (h : TiesAgree key δ f bottom o es es')
    (hbottom : ∀ t, bottom ≤ t) (start : T) (inside : T → Bool)
    (hinside : ∀ s t, s ≤ t → inside t = true → inside s = true) :
    windowLow key δ f start o es inside = windowLow key δ f start o es' inside := by
  have hstart := h.reached_eq hf ho hes hes' hperm (fun t => t ≤ start)
    fun s t hst ht => decide_eq_true (hst.trans (of_decide_eq_true ht))
  rw [windowLow, windowLow, ← hstart]
  refine congrArg Prod.fst (eq_of_ties
    (walkAfter key δ f start (reached δ f o (es.filter fun e => key e ≤ start))) hperm
    (fun t hbefore => ?_) inside hinside)
  rcases le_or_gt t start with ht | ht
  · rw [walkAfter_of_le ht, walkAfter_of_le ht]
  · rw [walkAfter_le hes ht, walkAfter_le hes' ht, ← hbefore]
    have hnow := snd_walkAfter (f := f) (δ := δ) hes o ht
    have hnonneg := getD_reached_nonneg hf ho (δ := δ) (es.filter fun e => key e < t)
    rw [← hnow] at hnonneg
    exact TieAgrees.foldl_lowStep_eq (hnow ▸ h t) ((hbottom start).trans_lt ht).ne' hnonneg
      (below_walkAfter start _ _) (perm_ties hperm t)

/-- Two orders that cannot be told apart, by what is there after an instant or by the window
of one instant, agree in their ties. -/
theorem tiesAgree_of_eq (h : TiesSameOrExact key δ f o es es')
    (hend : ∀ t, (reached δ f o (es.filter fun e => key e ≤ t)).getD 0 =
      (reached δ f o (es'.filter fun e => key e ≤ t)).getD 0)
    (hlow : ∀ t, t ≠ bottom →
      ((ties key δ t es).foldl (lowStep f) (reached δ f o (es.filter fun e => key e < t),
        reached δ f o (es.filter fun e => key e < t))).1.getD 0 =
      ((ties key δ t es').foldl (lowStep f) (reached δ f o (es'.filter fun e => key e < t),
        reached δ f o (es'.filter fun e => key e < t))).1.getD 0) :
    TiesAgree key δ f bottom o es es' := by
  have hagree : ∀ t, reached δ f o (es.filter fun e => key e < t) =
      reached δ f o (es'.filter fun e => key e < t) →
      TieAgrees f (t = bottom) (reached δ f o (es.filter fun e => key e < t))
        (ties key δ t es) (ties key δ t es') := by
    intro t hbefore
    have hend := hend t
    have hlow := hlow t
    rw [reached_le hes, reached_le hes', ← hbefore] at hend
    rw [← hbefore] at hlow
    exact tieAgrees_of_eq (h t) (getD_reached_nonneg hf ho _) (perm_ties hperm t) hend hlow
  intro t
  refine hagree t ?_
  refine eq_of_ties (reached δ f o) hperm (fun s hbefore => ?_) (fun s => s < t)
    fun s s' hs hs' => decide_eq_true (hs.trans_lt (of_decide_eq_true hs'))
  rw [reached_le hes, reached_le hes', ← hbefore]
  exact (hagree s hbefore).foldl_eq (getD_reached_nonneg hf ho _) (perm_ties hperm s)

end Agree

end TiedWalk
