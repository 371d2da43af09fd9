import Mathlib.Tactic

/-!
# What a reader parses

A reader takes tokens from the front of a list and may fail.  It parses a string of
tokens as a value when it takes exactly these, whatever follows them, and refuses it when
it fails on it, whatever follows.  What a reader returns is what it can return on any
input, and it stays inside its input when what it leaves is the end of what it was given.
What it returns may tell how many tokens it took.
-/

namespace Parsing

variable {T α β : Type}

abbrev Reader (T : Type) := StateT (List T) Option

/-- The reader takes exactly the tokens `ts` and returns `a`, whatever follows. -/
def Parses (r : Reader T α) (ts : List T) (a : α) : Prop :=
  ∀ rest, r.run (ts ++ rest) = some (a, rest)

/-- The reader fails on the tokens `ts`, whatever follows. -/
def Refuses (r : Reader T α) (ts : List T) : Prop := ∀ rest, r.run (ts ++ rest) = none

theorem run_bind (r : Reader T α) (k : α → Reader T β) (ts : List T) :
    (r >>= k).run ts = (r.run ts).bind fun p => (k p.1).run p.2 := rfl

theorem Parses.run {r : Reader T α} {ts : List T} {a : α} (h : Parses r ts a) :
    r.run ts = some (a, []) := by
  have hnil := h []
  rwa [List.append_nil] at hnil

theorem Parses.pure (a : α) : Parses (pure a : Reader T α) [] a := fun _ => rfl

theorem Parses.bind {r : Reader T α} {k : α → Reader T β} {ts us : List T} {a : α} {b : β}
    (hr : Parses r ts a) (hk : Parses (k a) us b) : Parses (r >>= k) (ts ++ us) b := by
  intro rest
  rw [run_bind, List.append_assoc, hr]
  exact hk rest

theorem Parses.run_bind {r : Reader T α} {ts : List T} {a : α} (hr : Parses r ts a)
    (k : α → Reader T β) (rest : List T) : (r >>= k).run (ts ++ rest) = (k a).run rest := by
  rw [Parsing.run_bind, hr]
  rfl

theorem Refuses.bind {r : Reader T α} {ts : List T} (hr : Refuses r ts) (k : α → Reader T β) :
    Refuses (r >>= k) ts := by
  intro rest
  rw [run_bind, hr]
  rfl

theorem Refuses.append {r : Reader T α} {ts : List T} (hr : Refuses r ts) (us : List T) :
    Refuses r (ts ++ us) := by
  intro rest
  rw [List.append_assoc]
  exact hr _

theorem Parses.bind_refuses {r : Reader T α} {k : α → Reader T β} {ts us : List T} {a : α}
    (hr : Parses r ts a) (hk : Refuses (k a) us) : Refuses (r >>= k) (ts ++ us) := by
  intro rest
  rw [List.append_assoc, hr.run_bind]
  exact hk rest

theorem Parses.map {r : Reader T α} {f : α → β} {ts : List T} {a : α} {b : β}
    (hr : Parses r ts a) (hf : f a = b) : Parses (r >>= fun a => Pure.pure (f a)) ts b := by
  have h := hr.bind (k := fun a => Pure.pure (f a)) (Parses.pure (f a))
  rwa [List.append_nil, hf] at h

/-- Whatever the reader returns has `Q`. -/
def Returns (r : Reader T α) (Q : α → Prop) : Prop :=
  ∀ ts a rest, r.run ts = some (a, rest) → Q a

theorem Returns.of_forall {r : Reader T α} {Q : α → Prop} (h : ∀ a, Q a) : Returns r Q :=
  fun _ a _ _ => h a

theorem Returns.pure {a : α} {Q : α → Prop} (h : Q a) : Returns (pure a : Reader T α) Q := by
  intro ts b rest hrun
  obtain ⟨rfl, -⟩ := Prod.mk.inj (Option.some.inj hrun)
  exact h

theorem Returns.bind {r : Reader T α} {k : α → Reader T β} {P : α → Prop} {Q : β → Prop}
    (hr : Returns r P) (hk : ∀ a, P a → Returns (k a) Q) : Returns (r >>= k) Q := by
  intro ts b rest hrun
  rw [run_bind] at hrun
  obtain ⟨⟨a, mid⟩, hread, hrest⟩ := Option.bind_eq_some_iff.mp hrun
  exact hk a (hr ts a mid hread) mid b rest hrest

/-- A reader of which nothing is known, before one of which something is. -/
theorem Returns.after {r : Reader T α} {k : α → Reader T β} {Q : β → Prop}
    (hk : ∀ a, Returns (k a) Q) : Returns (r >>= k) Q :=
  Returns.bind (P := fun _ => True) (Returns.of_forall fun _ => trivial) fun a _ => hk a

/-- What the reader leaves is the end of what it was given. -/
def StaysInside (r : Reader T α) : Prop :=
  ∀ ts a rest, r.run ts = some (a, rest) → rest <:+ ts

theorem StaysInside.pure (a : α) : StaysInside (pure a : Reader T α) := by
  intro ts b rest hrun
  obtain ⟨-, rfl⟩ := Prod.mk.inj (Option.some.inj hrun)
  exact List.suffix_rfl

theorem StaysInside.failure : StaysInside (failure : Reader T α) := by
  intro ts a rest hrun
  cases hrun

theorem StaysInside.bind {r : Reader T α} {k : α → Reader T β} (hr : StaysInside r)
    (hk : ∀ a, StaysInside (k a)) : StaysInside (r >>= k) := by
  intro ts b rest hrun
  rw [run_bind] at hrun
  obtain ⟨⟨a, mid⟩, hread, hrest⟩ := Option.bind_eq_some_iff.mp hrun
  exact (hk a mid b rest hrest).trans (hr ts a mid hread)

/-- Whatever the reader returns has `Q`, together with the number of tokens that it took. -/
def Takes (r : Reader T α) (Q : ℕ → α → Prop) : Prop :=
  ∀ ts a rest, r.run ts = some (a, rest) → ∃ n, ts.length = n + rest.length ∧ Q n a

theorem Takes.pure {a : α} {Q : ℕ → α → Prop} (h : Q 0 a) : Takes (pure a : Reader T α) Q := by
  intro ts b rest hrun
  obtain ⟨rfl, rfl⟩ := Prod.mk.inj (Option.some.inj hrun)
  exact ⟨0, (Nat.zero_add _).symm, h⟩

theorem Takes.failure {Q : ℕ → α → Prop} : Takes (failure : Reader T α) Q := by
  intro ts a rest hrun
  cases hrun

theorem Takes.bind {r : Reader T α} {k : α → Reader T β} {P : ℕ → α → Prop}
    {Q : ℕ → β → Prop} (hr : Takes r P)
    (hk : ∀ n a, P n a → Takes (k a) fun n' b => Q (n + n') b) : Takes (r >>= k) Q := by
  intro ts b rest hrun
  rw [run_bind] at hrun
  obtain ⟨⟨a, mid⟩, hread, hrest⟩ := Option.bind_eq_some_iff.mp hrun
  obtain ⟨n, hn, ha⟩ := hr ts a mid hread
  obtain ⟨n', hn', hb⟩ := hk n a ha mid b rest hrest
  exact ⟨n + n', by rw [hn, hn', Nat.add_assoc], hb⟩

/-- A reader that takes a fixed number of tokens comes first. -/
theorem Takes.after {r : Reader T α} {k : α → Reader T β} {width : ℕ} {Q : ℕ → β → Prop}
    (hr : Takes r fun n _ => n = width) (hk : ∀ a, Takes (k a) fun n b => Q (width + n) b) :
    Takes (r >>= k) Q := by
  apply hr.bind
  intro n a hn
  rw [hn]
  exact hk a

theorem Takes.map {r : Reader T α} {f : α → β} {P : ℕ → α → Prop} {Q : ℕ → β → Prop}
    (hr : Takes r P) (hf : ∀ n a, P n a → Q n (f a)) :
    Takes (r >>= fun a => Pure.pure (f a)) Q :=
  hr.bind fun n a ha => Takes.pure (hf n a ha)

def readMany (item : Reader T α) : ℕ → Reader T (List α)
  | 0 => return []
  | n + 1 => return (← item) :: (← readMany item n)

theorem Parses.readMany {γ : Type} {item : Reader T α} {write : γ → List T} {value : γ → α}
    {cs : List γ} (h : ∀ c ∈ cs, Parses item (write c) (value c)) :
    Parses (readMany item cs.length) (cs.flatMap write) (cs.map value) := by
  induction cs with
  | nil => exact Parses.pure []
  | cons c cs ih =>
    have hc := h c List.mem_cons_self
    have hcs := ih fun c' hc' => h c' (List.mem_cons_of_mem c hc')
    exact hc.bind (hcs.map rfl)

theorem StaysInside.readMany {item : Reader T α} (h : StaysInside item) (n : ℕ) :
    StaysInside (readMany item n) := by
  induction n with
  | zero => exact StaysInside.pure []
  | succ n ih => exact h.bind fun a => ih.bind fun as => StaysInside.pure (a :: as)

/-- A row takes what its items take together. -/
theorem Takes.readMany {item : Reader T α} {cost : α → ℕ} {P : α → Prop}
    (h : Takes item fun n a => n = cost a ∧ P a) (count : ℕ) :
    Takes (readMany item count) fun n as =>
      as.length = count ∧ n = (as.map cost).sum ∧ ∀ a ∈ as, P a := by
  induction count with
  | zero => exact Takes.pure ⟨rfl, rfl, fun a ha => absurd ha List.not_mem_nil⟩
  | succ count ih =>
    refine h.bind fun n a ha => ih.map fun n' as has => ?_
    obtain ⟨rfl, ha⟩ := ha
    obtain ⟨hlength, rfl, has⟩ := has
    exact ⟨congrArg Nat.succ hlength, rfl, List.forall_mem_cons.mpr ⟨ha, has⟩⟩

/-- A row of items is refused for one that is, if the others are parsed. -/
theorem Refuses.readMany {γ : Type} {item : Reader T α} {write : γ → List T} (bad : γ → Prop)
    {cs : List γ} (hgood : ∀ c ∈ cs, ¬bad c → ∃ a, Parses item (write c) a)
    (hbad : ∀ c ∈ cs, bad c → Refuses item (write c)) {c : γ} (hc : c ∈ cs) (h : bad c) :
    Refuses (Parsing.readMany item cs.length) (cs.flatMap write) := by
  induction cs with
  | nil => exact absurd hc List.not_mem_nil
  | cons c' cs ih =>
    by_cases hc' : bad c'
    · exact ((hbad c' List.mem_cons_self hc').bind _).append _
    · have hmem : c ∈ cs := (List.mem_cons.mp hc).resolve_left fun he => hc' (he ▸ h)
      have hrest := ih (fun x hx => hgood x (List.mem_cons_of_mem c' hx))
        (fun x hx => hbad x (List.mem_cons_of_mem c' hx)) hmem
      obtain ⟨a, ha⟩ := hgood c' List.mem_cons_self hc'
      exact ha.bind_refuses (hrest.bind _)

end Parsing
