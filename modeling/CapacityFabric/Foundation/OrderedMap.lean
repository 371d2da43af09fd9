import Mathlib.Data.List.Sort
import Mathlib.Tactic

/-!
# Ordered finite maps

A finite map kept as its list of entries in strictly increasing key order, so
that iterating over it visits the keys in order.  Every operation is `alter`
at one key; a loop that treats each visited key on its own is evaluated by
`foldl_pointwise`.
-/

/-- A finite map; `sorted` makes a duplicated or misplaced key unrepresentable. -/
structure OrderedMap (K V : Type*) [LinearOrder K] where
  entries : List (K × V)
  sorted : entries.Pairwise fun a b => a.1 < b.1

namespace OrderedMap

variable {K V S β : Type*} [LinearOrder K]

def lookup (k : K) : List (K × V) → Option V
  | [] => none
  | (k', v) :: l => if k = k' then some v else lookup k l

/-- Replaces the value under `k` by `f` of it, keeping the entries sorted. -/
def alterEntries (k : K) (f : Option V → Option V) : List (K × V) → List (K × V)
  | [] => (f none).toList.map (k, ·)
  | (k', v) :: l =>
    if k < k' then (f none).toList.map (k, ·) ++ (k', v) :: l
    else if k = k' then (f (some v)).toList.map (k, ·) ++ l
    else (k', v) :: alterEntries k f l

theorem lookup_eq_none_of_lt {k : K} {l : List (K × V)} (h : ∀ p ∈ l, k < p.1) :
    lookup k l = none := by
  induction l with
  | nil => rfl
  | cons p l ih =>
    have hp : k ≠ p.1 := (h p List.mem_cons_self).ne
    rw [lookup, if_neg hp]
    exact ih fun q hq => h q (List.mem_cons_of_mem _ hq)

theorem mem_alterEntries {k : K} {f : Option V → Option V} {l : List (K × V)} {p : K × V}
    (h : p ∈ alterEntries k f l) : p.1 = k ∨ p ∈ l := by
  induction l with
  | nil =>
    simp only [alterEntries, List.mem_map] at h
    obtain ⟨v, -, rfl⟩ := h
    exact Or.inl rfl
  | cons q l ih =>
    unfold alterEntries at h
    split_ifs at h with h1 h2
    · rcases List.mem_append.mp h with h | h
      · obtain ⟨v, -, rfl⟩ := List.mem_map.mp h
        exact Or.inl rfl
      · exact Or.inr h
    · rcases List.mem_append.mp h with h | h
      · obtain ⟨v, -, rfl⟩ := List.mem_map.mp h
        exact Or.inl rfl
      · exact Or.inr (List.mem_cons_of_mem _ h)
    · rcases List.mem_cons.mp h with rfl | h
      · exact Or.inr List.mem_cons_self
      · exact (ih h).imp_right (List.mem_cons_of_mem _)

theorem pairwise_toList_append {k : K} (o : Option V) {l : List (K × V)}
    (hl : l.Pairwise fun a b => a.1 < b.1) (hk : ∀ p ∈ l, k < p.1) :
    (o.toList.map (k, ·) ++ l).Pairwise fun a b => a.1 < b.1 := by
  cases o with
  | none => simpa using hl
  | some v => simpa using ⟨fun a b hab => hk (a, b) hab, hl⟩

theorem pairwise_alterEntries (k : K) (f : Option V → Option V) {l : List (K × V)}
    (h : l.Pairwise fun a b => a.1 < b.1) :
    (alterEntries k f l).Pairwise fun a b => a.1 < b.1 := by
  induction l with
  | nil => simpa [alterEntries] using pairwise_toList_append (f none) h (k := k) (by simp)
  | cons p l ih =>
    obtain ⟨hp, hl⟩ := List.pairwise_cons.mp h
    unfold alterEntries
    split_ifs with h1 h2
    · apply pairwise_toList_append _ h
      intro q hq
      rcases List.mem_cons.mp hq with rfl | hq
      · exact h1
      · exact h1.trans (hp q hq)
    · exact pairwise_toList_append _ hl (h2 ▸ hp)
    · refine List.pairwise_cons.mpr ⟨fun q hq => ?_, ih hl⟩
      rcases mem_alterEntries hq with hq | hq
      · exact hq ▸ lt_of_le_of_ne (not_lt.mp h1) (Ne.symm h2)
      · exact hp q hq

theorem lookup_toList_append (k k' : K) (o : Option V) (l : List (K × V)) :
    lookup k' (o.toList.map (k, ·) ++ l) =
      if k' = k then o.or (lookup k' l) else lookup k' l := by
  cases o with
  | none => simp
  | some v => by_cases h : k' = k <;> simp [lookup, h]

theorem lookup_alterEntries (k k' : K) (f : Option V → Option V) {l : List (K × V)}
    (h : l.Pairwise fun a b => a.1 < b.1) :
    lookup k' (alterEntries k f l) = if k' = k then f (lookup k l) else lookup k' l := by
  induction l with
  | nil =>
    have := lookup_toList_append k k' (f none) []
    simpa [alterEntries, lookup] using this
  | cons p l ih =>
    obtain ⟨hp, hl⟩ := List.pairwise_cons.mp h
    have hnone : ∀ j : K, j ≤ p.1 → lookup j l = none := fun j hj =>
      lookup_eq_none_of_lt fun q hq => hj.trans_lt (hp q hq)
    rcases lt_trichotomy k p.1 with hk | hk | hk
    · rw [alterEntries, if_pos hk, lookup_toList_append, show lookup k (p :: l) = none by
        rw [lookup, if_neg hk.ne, hnone k hk.le]]
      split_ifs with he
      · rw [he, lookup, if_neg hk.ne, hnone k hk.le, Option.or_none]
      · rfl
    · rw [alterEntries, if_neg hk.not_lt, if_pos hk, lookup_toList_append, lookup, if_pos hk]
      split_ifs with he
      · rw [he, hnone k hk.le, Option.or_none]
      · rw [lookup, if_neg (hk ▸ he)]
    · rw [alterEntries, if_neg hk.not_gt, if_neg hk.ne', lookup, ih hl]
      split_ifs with hk' he he
      · exact absurd (he ▸ hk') hk.ne'
      · rw [lookup, if_pos hk']
      · rw [lookup, if_neg hk.ne']
      · rw [lookup, if_neg hk']

def empty : OrderedMap K V := ⟨[], List.Pairwise.nil⟩

instance : EmptyCollection (OrderedMap K V) := ⟨empty⟩
instance : Inhabited (OrderedMap K V) := ⟨empty⟩

def find? (m : OrderedMap K V) (k : K) : Option V := lookup k m.entries

def contains (m : OrderedMap K V) (k : K) : Bool := (m.find? k).isSome

def size (m : OrderedMap K V) : ℕ := m.entries.length

def alter (m : OrderedMap K V) (k : K) (f : Option V → Option V) : OrderedMap K V :=
  ⟨alterEntries k f m.entries, pairwise_alterEntries k f m.sorted⟩

def insert (m : OrderedMap K V) (k : K) (v : V) : OrderedMap K V := m.alter k fun _ => some v

def erase (m : OrderedMap K V) (k : K) : OrderedMap K V := m.alter k fun _ => none

def filter (m : OrderedMap K V) (p : K × V → Bool) : OrderedMap K V :=
  ⟨m.entries.filter p, m.sorted.filter p⟩

@[simp] theorem find?_empty (k : K) : (∅ : OrderedMap K V).find? k = none := rfl

@[simp] theorem entries_empty : (∅ : OrderedMap K V).entries = [] := rfl

theorem find?_alter (m : OrderedMap K V) (k k' : K) (f : Option V → Option V) :
    (m.alter k f).find? k' = if k' = k then f (m.find? k) else m.find? k' :=
  lookup_alterEntries k k' f m.sorted

theorem find?_insert (m : OrderedMap K V) (k k' : K) (v : V) :
    (m.insert k v).find? k' = if k' = k then some v else m.find? k' :=
  find?_alter m k k' _

@[simp] theorem find?_insert_self (m : OrderedMap K V) (k : K) (v : V) :
    (m.insert k v).find? k = some v := by
  rw [find?_insert, if_pos rfl]

theorem find?_insert_of_ne (m : OrderedMap K V) {k k' : K} (v : V) (h : k' ≠ k) :
    (m.insert k v).find? k' = m.find? k' := by
  rw [find?_insert, if_neg h]

theorem find?_insert_congr {m m' : OrderedMap K V} {k' : K} (h : m.find? k' = m'.find? k') (k : K)
    (v : V) : (m.insert k v).find? k' = (m'.insert k v).find? k' := by
  rw [find?_insert, find?_insert, h]

theorem find?_alter_congr {m m' : OrderedMap K V} {k k' : K} (hk : m.find? k = m'.find? k)
    (h : m.find? k' = m'.find? k') (f : Option V → Option V) :
    (m.alter k f).find? k' = (m'.alter k f).find? k' := by
  rw [find?_alter, find?_alter, hk, h]

theorem find?_erase (m : OrderedMap K V) (k k' : K) :
    (m.erase k).find? k' = if k' = k then none else m.find? k' :=
  find?_alter m k k' _

theorem lookup_eq_some_iff {k : K} {v : V} {l : List (K × V)}
    (h : l.Pairwise fun a b => a.1 < b.1) : lookup k l = some v ↔ (k, v) ∈ l := by
  induction l with
  | nil => simp [lookup]
  | cons p l ih =>
    obtain ⟨hp, hl⟩ := List.pairwise_cons.mp h
    rw [lookup, List.mem_cons]
    split_ifs with hk
    · constructor
      · intro hv
        exact Or.inl (Prod.ext hk (Option.some.inj hv).symm)
      · rintro (hv | hv)
        · rw [← hv]
        · exact absurd (hp _ hv) (hk ▸ lt_irrefl _)
    · rw [ih hl]
      exact ⟨Or.inr, fun hv => hv.resolve_left fun he => hk (congrArg Prod.fst he)⟩

theorem find?_eq_some_iff {m : OrderedMap K V} {k : K} {v : V} :
    m.find? k = some v ↔ (k, v) ∈ m.entries :=
  lookup_eq_some_iff m.sorted

theorem contains_iff {m : OrderedMap K V} {k : K} : m.contains k ↔ ∃ v, m.find? k = some v :=
  Option.isSome_iff_exists

theorem find?_filter (m : OrderedMap K V) (p : K × V → Bool) (k : K) :
    (m.filter p).find? k = (m.find? k).filter fun v => p (k, v) := by
  apply Option.ext
  intro v
  rw [find?_eq_some_iff, Option.filter_eq_some_iff, find?_eq_some_iff]
  exact List.mem_filter

theorem nodup_entries (m : OrderedMap K V) : m.entries.Nodup :=
  m.sorted.imp fun hab he => hab.ne (congrArg Prod.fst he)

theorem ext_find? {m m' : OrderedMap K V} (h : ∀ k, m.find? k = m'.find? k) : m = m' := by
  have hmem : ∀ p, p ∈ m.entries ↔ p ∈ m'.entries := fun p => by
    rw [← find?_eq_some_iff (k := p.1) (v := p.2), h, find?_eq_some_iff]
  have hperm : m.entries.Perm m'.entries :=
    (List.perm_ext_iff_of_nodup m.nodup_entries m'.nodup_entries).mpr hmem
  have he : m.entries = m'.entries :=
    hperm.eq_of_pairwise (fun a b _ _ hab hba => absurd hab hba.not_gt) m.sorted m'.sorted
  cases m
  cases m'
  congr

theorem erase_eq_filter (m : OrderedMap K V) (k : K) : m.erase k = m.filter fun p => p.1 ≠ k := by
  apply ext_find?
  intro k'
  rw [find?_erase, find?_filter]
  by_cases hk : k' = k <;> cases m.find? k' <;> simp [hk, Option.filter]

theorem entries_erase (m : OrderedMap K V) (k : K) :
    (m.erase k).entries = m.entries.filter fun p => p.1 ≠ k :=
  congrArg entries (m.erase_eq_filter k)

theorem keys_injective {m : OrderedMap K V} {p q : K × V} (hp : p ∈ m.entries)
    (hq : q ∈ m.entries) (h : p.1 = q.1) : p = q := by
  have hv := (find?_eq_some_iff (v := p.2)).mpr hp
  rw [h, find?_eq_some_iff.mpr hq] at hv
  exact Prod.ext h (Option.some.inj hv).symm

/-- Erasing a key takes one entry away. -/
theorem perm_cons_erase {m : OrderedMap K V} {k : K} {v : V} (h : m.find? k = some v) :
    m.entries.Perm ((k, v) :: (m.erase k).entries) := by
  have hmem := find?_eq_some_iff.mp h
  rw [entries_erase, List.perm_ext_iff_of_nodup m.nodup_entries]
  · intro p
    rw [List.mem_cons, List.mem_filter, decide_eq_true_iff]
    constructor
    · intro hp
      by_cases hk : p.1 = k
      · exact Or.inl (keys_injective hp hmem hk)
      · exact Or.inr ⟨hp, hk⟩
    · rintro (rfl | ⟨hp, -⟩)
      · exact hmem
      · exact hp
  · exact List.nodup_cons.mpr ⟨by simp, m.nodup_entries.filter _⟩

/-- There are no more entries than codes for the keys. -/
theorem length_entries_le {code : K → ℕ} (hinj : Function.Injective code) {n : ℕ}
    (hlt : ∀ k, code k < n) (m : OrderedMap K V) : m.entries.length ≤ n := by
  have hnodup : (m.entries.map fun p => code p.1).Nodup :=
    m.sorted.map _ fun _ _ hkey heq => hkey.ne (hinj heq)
  have hsub : (m.entries.map fun p => code p.1) ⊆ List.range n := by
    intro c hc
    obtain ⟨p, -, rfl⟩ := List.mem_map.mp hc
    exact List.mem_range.mpr (hlt p.1)
  have hle := (List.subperm_of_subset hnodup hsub).length_le
  rwa [List.length_map, List.length_range] at hle

/-- A loop over the entries whose body changes, of what `get` observes, only the
value at the visited key: each key is treated once, on its initial value. -/
theorem foldl_pointwise (get : S → K → β) (body : S → K → V → S) (f : K → V → β → β)
    (hbody : ∀ s k v k', get (body s k v) k' = if k' = k then f k v (get s k) else get s k')
    (m : OrderedMap K V) (init : S) (k : K) :
    get (m.entries.foldl (fun s p => body s p.1 p.2) init) k =
      (m.find? k).elim (get init k) fun v => f k v (get init k) := by
  obtain ⟨l, h⟩ := m
  change _ = (lookup k l).elim _ _
  induction l generalizing init with
  | nil => rfl
  | cons p l ih =>
    obtain ⟨hp, hl⟩ := List.pairwise_cons.mp h
    rw [List.foldl_cons, ih _ hl, hbody]
    by_cases hk : k = p.1
    · have hnone : lookup k l = none := lookup_eq_none_of_lt fun q hq => hk ▸ hp q hq
      rw [lookup, if_pos hk, hnone, if_pos hk, hk]
      rfl
    · rw [lookup, if_neg hk, if_neg hk]

/-- The last of sorted entries is the one of the largest key. -/
theorem getLast?_eq_some_iff {l : List (K × V)} (h : l.Pairwise fun a b => a.1 < b.1)
    {p : K × V} : l.getLast? = some p ↔ p ∈ l ∧ ∀ q ∈ l, q.1 ≤ p.1 := by
  rcases List.eq_nil_or_concat' l with rfl | ⟨l, last, rfl⟩
  · simp
  · have hlt : ∀ q ∈ l, q.1 < last.1 :=
      fun q hq => (List.pairwise_append.mp h).2.2 q hq last (List.mem_singleton_self last)
    rw [List.getLast?_append, List.getLast?_singleton, Option.some_or, Option.some.injEq]
    constructor
    · rintro rfl
      refine ⟨List.mem_append_right l (List.mem_singleton_self last), fun q hq => ?_⟩
      rcases List.mem_append.mp hq with hq | hq
      · exact (hlt q hq).le
      · exact (congrArg Prod.fst (List.mem_singleton.mp hq)).le
    · rintro ⟨hp, hmax⟩
      rcases List.mem_append.mp hp with hp | hp
      · have hle := hmax last (List.mem_append_right l (List.mem_singleton_self last))
        exact absurd (hlt p hp) hle.not_gt
      · exact (List.mem_singleton.mp hp).symm

/-- Of the values with a property, the last is that of the largest key. -/
theorem getLast?_filter_values {m : OrderedMap K V} {p : V → Bool} {v : V} :
    ((m.entries.map Prod.snd).filter p).getLast? = some v ↔
      p v = true ∧ ∃ k, m.find? k = some v ∧
        ∀ k' v', m.find? k' = some v' → p v' = true → k' ≤ k := by
  rw [List.filter_map, List.getLast?_map, Option.map_eq_some_iff]
  simp only [getLast?_eq_some_iff (m.sorted.filter _), List.mem_filter, Function.comp_apply]
  constructor
  · rintro ⟨⟨k, w⟩, ⟨⟨hmem, hp⟩, hmax⟩, rfl⟩
    refine ⟨hp, k, find?_eq_some_iff.mpr hmem, fun k' v' hv' hp' => ?_⟩
    exact hmax (k', v') ⟨find?_eq_some_iff.mp hv', hp'⟩
  · rintro ⟨hp, k, hk, hmax⟩
    refine ⟨(k, v), ⟨⟨find?_eq_some_iff.mp hk, hp⟩, fun q hq => ?_⟩, rfl⟩
    exact hmax q.1 q.2 (find?_eq_some_iff.mpr hq.1) hq.2

/-- A loop that inserts an entry for each element: the last element of a key decides. -/
theorem find?_foldl_insert (key : β → K) (val : β → V) (l : List β) (init : OrderedMap K V)
    (k : K) :
    (l.foldl (fun m b => m.insert (key b) (val b)) init).find? k =
      ((l.filter fun b => key b = k).getLast?.map val).or (init.find? k) := by
  induction l generalizing init with
  | nil => rfl
  | cons b l ih =>
    rw [List.foldl_cons, ih, find?_insert, List.filter_cons]
    by_cases hk : key b = k
    · rw [if_pos hk.symm, if_pos (by simpa using hk), List.getLast?_cons]
      cases (l.filter fun b => key b = k).getLast? <;> simp
    · rw [if_neg (Ne.symm hk), if_neg (by simpa using hk)]

/-- A loop that counts the elements of each key. -/
theorem find?_foldl_count (key : β → K) (l : List β) (init : OrderedMap K ℕ) (k : K) :
    (l.foldl (fun m b => m.insert (key b) ((m.find? (key b)).getD 0 + 1)) init).find? k =
      if (l.filter fun b => key b = k) = [] then init.find? k
      else some ((init.find? k).getD 0 + (l.filter fun b => key b = k).length) := by
  induction l generalizing init with
  | nil => rfl
  | cons b l ih =>
    rw [List.foldl_cons, ih, find?_insert, List.filter_cons]
    by_cases hk : key b = k
    · simp only [hk, decide_true, if_true, Option.getD_some, List.length_cons, reduceCtorEq,
        if_false]
      split_ifs with hnone
      · rw [hnone, List.length_nil, zero_add]
      · congr 1
        omega
    · simp only [hk, Ne.symm hk, decide_false, if_false, Bool.false_eq_true]

/-- Inserting entries of distinct keys into an empty map keeps them all. -/
theorem perm_foldl_insert (key : β → K) (val : β → V) {l : List β} (h : (l.map key).Nodup) :
    (l.foldl (fun m b => m.insert (key b) (val b)) (∅ : OrderedMap K V)).entries.Perm
      (l.map fun b => (key b, val b)) := by
  have hinj := List.inj_on_of_nodup_map h
  have hpairs : (l.map fun b => (key b, val b)).Nodup := by
    have hkeys : ((l.map fun b => (key b, val b)).map Prod.fst).Nodup := by
      rwa [List.map_map]
    exact hkeys.of_map _
  rw [List.perm_ext_iff_of_nodup (nodup_entries _) hpairs]
  rintro ⟨k, v⟩
  rw [← find?_eq_some_iff, find?_foldl_insert, find?_empty, Option.or_none, Option.map_eq_some_iff,
    List.mem_map]
  constructor
  · rintro ⟨b, hb, rfl⟩
    obtain ⟨hmem, hkey⟩ := List.mem_filter.mp (List.mem_of_getLast? hb)
    exact ⟨b, hmem, Prod.ext (of_decide_eq_true hkey) rfl⟩
  · rintro ⟨b, hb, heq⟩
    obtain ⟨rfl, rfl⟩ := Prod.mk.inj heq
    -- The key of `b` is that of no other element.
    have hmem : b ∈ l.filter fun b' => key b' = key b :=
      List.mem_filter.mpr ⟨hb, decide_eq_true rfl⟩
    obtain ⟨b', hb'⟩ : ∃ b', (l.filter fun b' => key b' = key b).getLast? = some b' :=
      ⟨_, List.getLast?_eq_some_getLast (List.ne_nil_of_mem hmem)⟩
    obtain ⟨hmem', hkey'⟩ := List.mem_filter.mp (List.mem_of_getLast? hb')
    exact ⟨b', hb', congrArg val (hinj hmem' hb (of_decide_eq_true hkey'))⟩

theorem mem_foldl_insert {key : β → K} {l : List β} {p : K × β}
    (h : p ∈ (l.foldl (fun m b => m.insert (key b) b) (∅ : OrderedMap K β)).entries) :
    p.2 ∈ l ∧ key p.2 = p.1 := by
  rw [← find?_eq_some_iff (k := p.1) (v := p.2), find?_foldl_insert key fun b => b,
    find?_empty, Option.or_none, Option.map_eq_some_iff] at h
  obtain ⟨b, hb, rfl⟩ := h
  obtain ⟨hmem, hkey⟩ := List.mem_filter.mp (List.mem_of_getLast? hb)
  exact ⟨hmem, of_decide_eq_true hkey⟩

/-- The values that are left when each is inserted under its key are some of them. -/
theorem values_foldl_insert_subperm (key : β → K) (l : List β) :
    ((l.foldl (fun m b => m.insert (key b) b) (∅ : OrderedMap K β)).entries.map
      Prod.snd).Subperm l := by
  apply List.subperm_of_subset
  · refine (nodup_entries _).map_on fun p hp q hq heq => keys_injective hp hq ?_
    rw [← (mem_foldl_insert hp).2, ← (mem_foldl_insert hq).2, heq]
  · intro b hb
    obtain ⟨p, hp, rfl⟩ := List.mem_map.mp hb
    exact (mem_foldl_insert hp).1

/-- Inserting the entries of a map again makes the map. -/
theorem foldl_insert_entries (m : OrderedMap K V) :
    m.entries.foldl (fun m' p => m'.insert p.1 p.2) ∅ = m := by
  have hkeys : (m.entries.map Prod.fst).Nodup := m.sorted.map _ fun _ _ hlt => hlt.ne
  have hperm := perm_foldl_insert Prod.fst Prod.snd hkeys
  apply ext_find?
  intro k
  apply Option.ext
  intro v
  rw [find?_eq_some_iff, find?_eq_some_iff, hperm.mem_iff, List.map_id']

theorem length_alterEntries_le (k : K) (f : Option V → Option V) (l : List (K × V)) :
    (alterEntries k f l).length ≤ l.length + 1 := by
  have hle : ∀ o : Option V, (o.toList.map (k, ·)).length ≤ 1 := fun o => by cases o <;> simp
  induction l with
  | nil => exact hle _
  | cons p l ih =>
    unfold alterEntries
    split_ifs
    · have := hle (f none)
      rw [List.length_append, List.length_cons]
      omega
    · have := hle (f (some p.2))
      rw [List.length_append, List.length_cons]
      omega
    · rw [List.length_cons, List.length_cons]
      omega

theorem size_foldl_insert_le (key : β → K) (val : β → V) (l : List β) (init : OrderedMap K V) :
    (l.foldl (fun m b => m.insert (key b) (val b)) init).size ≤ init.size + l.length := by
  induction l generalizing init with
  | nil => exact le_rfl
  | cons b l ih =>
    have hinsert : (init.insert (key b) (val b)).size ≤ init.size + 1 :=
      length_alterEntries_le _ _ _
    have hrest := ih (init.insert (key b) (val b))
    rw [List.foldl_cons, List.length_cons]
    omega

/-- A map whose keys are places in a list has no more entries than the places allow. -/
theorem length_entries_le_countP {V β : Type*} (m : OrderedMap ℕ V) {p : β → Bool} {l : List β}
    (h : ∀ k v, m.find? k = some v → ∃ b, l[k]? = some b ∧ p b = true) :
    m.entries.length ≤ l.countP p := by
  have hcount : ∀ l : List β,
      ((List.range l.length).filter fun k => (l[k]?).any p).length = l.countP p := by
    intro l
    induction l with
    | nil => rfl
    | cons b l ih =>
      rw [List.length_cons, List.range_succ_eq_map, List.filter_cons, List.filter_map,
        List.countP_cons, ← ih]
      cases hb : p b <;> simp [hb, Function.comp_def]
  have hnodup : (m.entries.map Prod.fst).Nodup :=
    m.sorted.map _ fun _ _ hkey => hkey.ne
  have hsub : m.entries.map Prod.fst ⊆ (List.range l.length).filter fun k => (l[k]?).any p := by
    intro k hk
    obtain ⟨⟨_, v⟩, hmem, rfl⟩ := List.mem_map.mp hk
    obtain ⟨b, hb, hpb⟩ := h _ v (find?_eq_some_iff.mpr hmem)
    refine List.mem_filter.mpr ⟨List.mem_range.mpr (List.getElem?_eq_some_iff.mp hb).1, ?_⟩
    rw [hb, Option.any_some, hpb]
  have hle := (List.subperm_of_subset hnodup hsub).length_le
  rwa [List.length_map, hcount] at hle

end OrderedMap
