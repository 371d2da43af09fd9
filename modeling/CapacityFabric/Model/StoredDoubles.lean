import CapacityFabric.Model.Operations
import CapacityFabric.Persistence.Doubles

/-!
# The amounts that are stored

What is saved as a `double` is one, in every state that operations with such amounts reach.
-/

namespace CapacityFabric

/-- The amounts of the operation that will be saved are doubles. -/
def ModelOp.CarriesDoubles : ModelOp → Prop
  | .publishReservation r => IsDouble (r.hold.at_ .acceleratorCount)
  | .publishRelease e =>
    IsDouble (e.release.at_ .acceleratorCount) ∧ IsDouble e.confidence.value
  | _ => True

namespace CapacityModel

open BinaryReader Loader Parsing

def StoredReservation (r : Reservation) : Prop := IsDouble (r.hold.at_ .acceleratorCount)

def StoredRelease (e : ReleaseEvent) : Prop :=
  IsDouble (e.release.at_ .acceleratorCount) ∧ IsDouble e.confidence.value

/-- Every amount that is saved as a `double` is one. -/
structure StoresDoubles (m : CapacityModel) : Prop where
  reservation : ∀ r ∈ m.reservations, StoredReservation r
  release : ∀ e ∈ m.releases, StoredRelease e

theorem isDouble_ofBits {bits : UInt64} {v : ℚ} (h : Double.ofBits bits = .finite v) :
    IsDouble v := ⟨bits, h⟩

theorem returns_readF64 : Returns readF64 fun x => ∀ v, x = .finite v → IsDouble v :=
  Returns.after fun _ => Returns.pure fun _ h => isDouble_ofBits h

theorem at_change_empty (d : Dimension) (v : ℚ) : (CapacityDelta.change ∅ d v).at_ d = v := by
  rw [CapacityDelta.at_change, if_pos rfl]
  exact zero_add v

theorem returns_readSavedReservation :
    Returns readSavedReservation fun x => ∀ r, x = .ok r → StoredReservation r := by
  refine Returns.after fun id => Returns.after fun generation => Returns.after fun start =>
    Returns.after fun end_ => Returns.after fun strength => ?_
  refine Returns.bind returns_readF64 fun hold hhold => Returns.pure ?_
  intro r hr
  cases hold with
  | nonFinite => cases hinterval : Interval.make? start end_ <;> simp [hinterval] at hr
  | finite v =>
    cases hinterval : Interval.make? start end_ with
    | none => simp [hinterval] at hr
    | some interval =>
      simp only [hinterval, Except.ok.injEq] at hr
      rw [StoredReservation, ← hr, at_change_empty]
      exact hhold v rfl

theorem returns_readSavedRelease :
    Returns readSavedRelease fun x => ∀ e, x = .ok e → StoredRelease e := by
  refine Returns.after fun sourceId => Returns.after fun time => Returns.after fun earliest =>
    Returns.after fun latest => ?_
  refine Returns.bind returns_readF64 fun conf hconf => ?_
  refine Returns.bind returns_readF64 fun amount hamount => Returns.pure ?_
  intro e he
  cases hchecked : checkedConfidence conf with
  | none => simp [hchecked] at he
  | some confidence =>
    cases amount with
    | nonFinite => simp [hchecked] at he
    | finite v =>
      simp only [hchecked, Except.ok.injEq] at he
      rw [StoredRelease, ← he, at_change_empty]
      refine ⟨hamount v rfl, ?_⟩
      cases conf with
      | nonFinite => simp [checkedConfidence] at hchecked
      | finite c =>
        have hmake : BoundedFraction.make? c = some confidence := hchecked
        unfold BoundedFraction.make? at hmake
        split_ifs at hmake
        obtain rfl := Option.some.inj hmake
        exact hconf c rfl

theorem preserves_storesDoubles [A : Arithmetic] : Preserves StoresDoubles loadBody := by
  refine preserves_loadBody (fun _ _ h => ⟨h.reservation, h.release⟩) ?_
  refine Preserves.bind (preserves_loadResources fun _ _ h => ⟨h.reservation, h.release⟩)
    fun _ => ?_
  refine Preserves.bind (Preserves.loadRecords (fun _ h => ⟨by simp, h.release⟩) ?_) fun _ => ?_
  · intro data x rest hread r hr m h
    refine ⟨fun r' hr' => ?_, h.release⟩
    rcases List.mem_append.mp hr' with hr' | hr'
    · exact h.reservation r' hr'
    · obtain rfl := List.mem_singleton.mp hr'
      exact returns_readSavedReservation data x rest hread _ hr
  refine Preserves.bind (Preserves.loadRecords (fun _ h => ⟨h.reservation, by simp⟩) ?_)
    fun _ => ?_
  · intro data x rest hread e he m h
    refine ⟨h.reservation, fun e' he' => ?_⟩
    rcases List.mem_append.mp he' with he' | he'
    · exact h.release e' he'
    · obtain rfl := List.mem_singleton.mp he'
      exact returns_readSavedRelease data x rest hread _ he
  refine Preserves.bind (Preserves.loadRecords (fun _ h => ⟨h.reservation, h.release⟩)
    (Returns.of_forall fun _ _ _ _ h => ⟨h.reservation, h.release⟩)) fun _ => ?_
  exact Preserves.bind Preserves.atEnd fun _ =>
    Preserves.update fun _ h => ⟨h.reservation, h.release⟩

theorem StoresDoubles.step {m : CapacityModel} (h : m.StoresDoubles) {op : ModelOp}
    (hop : op.CarriesDoubles) : (m.step op).StoresDoubles := by
  rcases step_cases m op with ⟨bytes, -, heq⟩ | heq | haccepted
  · rw [heq]
    exact load_preserves preserves_storesDoubles h bytes
  · rwa [heq]
  · generalize m.step op = m' at haccepted ⊢
    cases haccepted with
    | publishReservation =>
      refine ⟨fun r' hr' => ?_, h.release⟩
      rcases List.mem_append.mp hr' with hr' | hr'
      · exact h.reservation r' (List.mem_of_mem_filter hr')
      · exact List.mem_singleton.mp hr' ▸ hop
    | publishRelease e =>
      refine ⟨h.reservation, fun e' he' => ?_⟩
      rcases List.mem_append.mp he' with he' | he'
      · exact h.release e' (List.mem_of_mem_filter he')
      · exact List.mem_singleton.mp he' ▸ hop
    | _ => exact ⟨h.reservation, h.release⟩

theorem storesDoubles_empty : ({} : CapacityModel).StoresDoubles :=
  ⟨fun _ hr => absurd hr List.not_mem_nil, fun _ he => absurd he List.not_mem_nil⟩

theorem storesDoubles_run {m : CapacityModel} (h : m.StoresDoubles) {ops : List ModelOp}
    (hops : ∀ op ∈ ops, op.CarriesDoubles) : (Runs.run step m ops).StoresDoubles := by
  induction ops generalizing m with
  | nil => exact h
  | cons op ops ih =>
    exact ih (h.step (hops op List.mem_cons_self)) fun o ho => hops o (List.mem_cons_of_mem op ho)

end CapacityModel

end CapacityFabric
