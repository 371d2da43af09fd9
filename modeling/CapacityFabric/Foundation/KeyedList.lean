import Mathlib.Tactic

/-!
# Lists with one entry for each key

A list kept by hand as a map: an entry that is published replaces the one under its key
and goes to the end.
-/

namespace KeyedList

variable {α K : Type*} [DecidableEq K] (key : α → K)

/-- Puts `a` at the end, in the place of what is under its key. -/
def replace (l : List α) (a : α) : List α := (l.filter fun c => key c ≠ key a) ++ [a]

def Unique (l : List α) : Prop := (l.map key).Nodup

instance (l : List α) : Decidable (Unique key l) := List.nodupDecidable _

variable {key}

theorem Unique.replace {l : List α} (h : Unique key l) (a : α) : Unique key (replace key l a) := by
  unfold Unique KeyedList.replace
  rw [List.map_append, List.nodup_append]
  refine ⟨h.sublist (List.filter_sublist.map key), List.nodup_singleton _, fun k hk k' hk' => ?_⟩
  obtain ⟨c, hc, rfl⟩ := List.mem_map.mp hk
  rw [List.map_singleton, List.mem_singleton] at hk'
  rw [hk']
  exact of_decide_eq_true (List.mem_filter.mp hc).2

theorem replace_perm {l l' : List α} (h : l.Perm l') (a : α) :
    (replace key l a).Perm (replace key l' a) :=
  (h.filter _).append_right _

/-- Two entries under different keys end up next to each other, in either order. -/
theorem replace_comm (l : List α) {a b : α} (hne : key a ≠ key b) :
    (replace key (replace key l a) b).Perm (replace key (replace key l b) a) := by
  have hfilter : (l.filter fun c => key c ≠ key a).filter (fun c => key c ≠ key b) =
      (l.filter fun c => key c ≠ key b).filter fun c => key c ≠ key a := List.filter_comm _ _ _
  have hsingle : ∀ c d : α, key c ≠ key d → [c].filter (fun e => key e ≠ key d) = [c] :=
    fun c d h => List.filter_cons_of_pos (decide_eq_true h)
  unfold replace
  rw [List.filter_append, List.filter_append, hfilter, hsingle a b hne, hsingle b a hne.symm,
    List.append_assoc, List.append_assoc]
  exact (List.Perm.swap b a []).append_left _

end KeyedList
