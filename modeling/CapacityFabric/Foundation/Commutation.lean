import CapacityFabric.Foundation.Runs
import Mathlib.Order.CompletePartialOrder

/-!
# Actions that commute

A state is looked at cell by cell.  An action is local to a set of cells when it writes
no other cell, and when what it writes and answers depends on these cells alone.  Actions
local to disjoint sets commute, so that two parties that stay apart get the same answers
and leave the same state under every interleaving.
-/

namespace Commutation

variable {S A O K : Type*} {V : K → Type*}

/-- Runs over permuted actions end alike, up to a relation that every step respects, if
any two of the actions commute up to it. -/
theorem run_perm {step : S → A → S} {R : S → S → Prop} (hrefl : ∀ s, R s s)
    (htrans : ∀ {s t u}, R s t → R t u → R s u)
    (hcongr : ∀ {s t} a, R s t → R (step s a) (step t a)) {Apart : A → A → Prop}
    (hsymm : ∀ {a b}, Apart a b → Apart b a)
    (hswap : ∀ s {a b}, Apart a b → R (step (step s a) b) (step (step s b) a))
    {as bs : List A} (h : as.Perm bs) (hapart : as.Pairwise Apart) (s : S) :
    R (Runs.run step s as) (Runs.run step s bs) := by
  have hrun : ∀ (as : List A) {s t}, R s t → R (Runs.run step s as) (Runs.run step t as) := by
    intro as
    induction as with
    | nil => exact id
    | cons a as ih => exact fun hst => ih (hcongr a hst)
  induction h generalizing s with
  | nil => exact hrefl s
  | cons a _ ih => exact ih (List.pairwise_cons.mp hapart).2 (step s a)
  | swap a b as =>
    exact hrun as (hswap s ((List.pairwise_cons.mp hapart).1 a List.mem_cons_self))
  | trans hab _ ihab ihbc =>
    exact htrans (ihab hapart s) (ihbc (hab.pairwise hapart hsymm) s)

section Local

variable (look : S → (k : K) → V k) (apply : S → A → S × O) (Inv : S → Prop)

/-- On states with the invariant, the action is local to the cells `F`. -/
structure LocalTo (F : Set K) (a : A) : Prop where
  keeps : ∀ {s}, Inv s → Inv (apply s a).1
  frame : ∀ {s}, Inv s → ∀ k ∉ F, look (apply s a).1 k = look s k
  answer : ∀ {s t}, Inv s → Inv t → (∀ k ∈ F, look s k = look t k) → (apply s a).2 = (apply t a).2
  effect : ∀ {s t}, Inv s → Inv t → (∀ k ∈ F, look s k = look t k) →
    ∀ k ∈ F, look (apply s a).1 k = look (apply t a).1 k

variable {look apply Inv} {F G : Set K} {a b : A} {s : S}

theorem LocalTo.strengthen (h : LocalTo look apply Inv F a) {J : S → Prop}
    (himp : ∀ {s}, J s → Inv s) (hkeeps : ∀ {s}, J s → J (apply s a).1) :
    LocalTo look apply J F a :=
  ⟨hkeeps, fun hs => h.frame (himp hs), fun hs ht => h.answer (himp hs) (himp ht),
    fun hs ht => h.effect (himp hs) (himp ht)⟩

/-- An action does not see what another has done elsewhere. -/
theorem LocalTo.answer_after (ha : LocalTo look apply Inv F a) (hb : LocalTo look apply Inv G b)
    (hdisjoint : Disjoint F G) (hs : Inv s) :
    (apply (apply s b).1 a).2 = (apply s a).2 :=
  ha.answer (hb.keeps hs) hs fun k hk => hb.frame hs k (Set.disjoint_left.mp hdisjoint hk)

theorem LocalTo.look_after (ha : LocalTo look apply Inv F a) (hb : LocalTo look apply Inv G b)
    (hdisjoint : Disjoint F G) (hs : Inv s) {k : K} (hk : k ∈ F) :
    look (apply (apply s a).1 b).1 k = look (apply (apply s b).1 a).1 k := by
  rw [hb.frame (ha.keeps hs) k (Set.disjoint_left.mp hdisjoint hk)]
  exact (ha.effect (hb.keeps hs) hs
    (fun k hk => hb.frame hs k (Set.disjoint_left.mp hdisjoint hk)) k hk).symm

/-- Where a state is what its cells show, actions local to disjoint cells commute. -/
theorem LocalTo.comm (ha : LocalTo look apply Inv F a) (hb : LocalTo look apply Inv G b)
    (hext : ∀ {s t}, (∀ k, look s k = look t k) → s = t) (hdisjoint : Disjoint F G)
    (hs : Inv s) : (apply (apply s a).1 b).1 = (apply (apply s b).1 a).1 := by
  apply hext
  intro k
  by_cases hF : k ∈ F
  · exact ha.look_after hb hdisjoint hs hF
  by_cases hG : k ∈ G
  · exact (hb.look_after ha hdisjoint.symm hs hG).symm
  · rw [hb.frame (ha.keeps hs) k hG, ha.frame hs k hF, ha.frame (hb.keeps hs) k hF,
      hb.frame hs k hG]

end Local

section Parties

variable (apply : S → A → S × O)

/-- Runs the interleaved actions of two parties; what each of them is answered, in its
own order, comes after the final state. -/
def serve : S → List (A ⊕ A) → S × List O × List O
  | s, [] => (s, [], [])
  | s, .inl a :: zs =>
    let rest := serve (apply s a).1 zs
    (rest.1, (apply s a).2 :: rest.2.1, rest.2.2)
  | s, .inr b :: zs =>
    let rest := serve (apply s b).1 zs
    (rest.1, rest.2.1, (apply s b).2 :: rest.2.2)

def lefts (zs : List (A ⊕ A)) : List A := zs.filterMap Sum.getLeft?

def rights (zs : List (A ⊕ A)) : List A := zs.filterMap Sum.getRight?

variable {apply} {look : S → (k : K) → V k} {Inv : S → Prop} {F G : Set K}

/-- An action of the second party can wait for those of the first. -/
theorem serve_delay (hext : ∀ {s t}, (∀ k, look s k = look t k) → s = t)
    (hdisjoint : Disjoint F G) {b : A} (hb : LocalTo look apply Inv G b) {as : List A}
    (has : ∀ a ∈ as, LocalTo look apply Inv F a) (zs : List (A ⊕ A)) {s : S} (hs : Inv s) :
    serve apply s (.inr b :: (as.map .inl ++ zs)) =
      serve apply s (as.map .inl ++ .inr b :: zs) := by
  induction as generalizing s with
  | nil => rfl
  | cons a as ih =>
    obtain ⟨ha, has⟩ := List.forall_mem_cons.mp has
    have hrest := ih has (ha.keeps hs)
    have hstate := ha.comm hb hext hdisjoint hs
    have hanswer := ha.answer_after hb hdisjoint hs
    have hanswer' := hb.answer_after ha hdisjoint.symm hs
    simp only [List.map_cons, List.cons_append, serve] at hrest ⊢
    rw [← hrest, hstate, hanswer, hanswer']

/-- Every interleaving is served as if the first party went first. -/
theorem serve_eq (hext : ∀ {s t}, (∀ k, look s k = look t k) → s = t)
    (hdisjoint : Disjoint F G) {zs : List (A ⊕ A)}
    (hleft : ∀ a ∈ lefts zs, LocalTo look apply Inv F a)
    (hright : ∀ b ∈ rights zs, LocalTo look apply Inv G b) {s : S} (hs : Inv s) :
    serve apply s zs = serve apply s ((lefts zs).map .inl ++ (rights zs).map .inr) := by
  induction zs generalizing s with
  | nil => rfl
  | cons z zs ih =>
    cases z with
    | inl a =>
      have ha : LocalTo look apply Inv F a := hleft a List.mem_cons_self
      have hrest := ih (fun a' h => hleft a' (List.mem_cons_of_mem a h)) hright (ha.keeps hs)
      show serve apply s (.inl a :: zs) =
        serve apply s (.inl a :: ((lefts zs).map .inl ++ (rights zs).map .inr))
      rw [serve, serve, hrest]
    | inr b =>
      have hb : LocalTo look apply Inv G b := hright b List.mem_cons_self
      have has : ∀ a ∈ lefts zs, LocalTo look apply Inv F a := hleft
      have hrest := ih has (fun b' h => hright b' (List.mem_cons_of_mem b h)) (hb.keeps hs)
      have hdelay := serve_delay hext hdisjoint hb has ((rights zs).map .inr) hs
      show serve apply s (.inr b :: zs) =
        serve apply s ((lefts zs).map .inl ++ .inr b :: (rights zs).map .inr)
      rw [← hdelay, serve, serve, hrest]

/-- Two parties local to disjoint cells leave one state and get one set of answers,
whatever the interleaving. -/
theorem serve_interleaving (hext : ∀ {s t}, (∀ k, look s k = look t k) → s = t)
    (hdisjoint : Disjoint F G) {zs zs' : List (A ⊕ A)}
    (hleft : ∀ a ∈ lefts zs, LocalTo look apply Inv F a)
    (hright : ∀ b ∈ rights zs, LocalTo look apply Inv G b) (hl : lefts zs = lefts zs')
    (hr : rights zs = rights zs') {s : S} (hs : Inv s) :
    serve apply s zs = serve apply s zs' := by
  have hleft' : ∀ a ∈ lefts zs', LocalTo look apply Inv F a := hl ▸ hleft
  have hright' : ∀ b ∈ rights zs', LocalTo look apply Inv G b := hr ▸ hright
  calc serve apply s zs
      = serve apply s ((lefts zs).map .inl ++ (rights zs).map .inr) :=
        serve_eq hext hdisjoint hleft hright hs
    _ = serve apply s ((lefts zs').map .inl ++ (rights zs').map .inr) := by rw [hl, hr]
    _ = serve apply s zs' := (serve_eq hext hdisjoint hleft' hright' hs).symm

end Parties

end Commutation
