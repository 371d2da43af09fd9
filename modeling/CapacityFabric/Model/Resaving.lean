import CapacityFabric.Model.Corruption
import CapacityFabric.Model.SavedState

/-!
# Saving what was loaded

Whatever file a fresh model accepts, the file that it then saves restores it as it is.
-/

namespace CapacityFabric

namespace CapacityModel

open BinaryReader Loader Parsing

theorem savedReservation_of_hold {r : Reservation} {v : ℚ}
    (h : r.hold = CapacityDelta.change ∅ .acceleratorCount v) : savedReservation r = r := by
  rw [savedReservation, h, at_change_empty, ← h]

theorem savedRelease_of_release {e : ReleaseEvent} {v : ℚ}
    (h : e.release = CapacityDelta.change ∅ .acceleratorCount v) : savedRelease e = e := by
  rw [savedRelease, h, at_change_empty, ← h]

/-- The stored count is the value of a double, and below the limit its conversion is its value. -/
theorem storedCount (n : UInt64) : IsDouble (Arithmetic.double.round n.toNat) ∧
    (Arithmetic.double.round n.toNat < 2 ^ 64 →
      Arithmetic.double.round (toUInt64 (Arithmetic.double.round n.toNat)).toNat =
        Arithmetic.double.round n.toNat) := by
  obtain ⟨k, e, hk, he, heq⟩ := Arithmetic.exists_round_toNat n
  rw [heq]
  refine ⟨isDouble_shifted hk (by omega), fun hlt => ?_⟩
  have hlt' : k * 2 ^ e < 2 ^ 64 := by exact_mod_cast hlt
  have hback : (toUInt64 ((k * 2 ^ e : ℕ) : ℚ)).toNat = k * 2 ^ e := by
    rw [toUInt64, Nat.floor_natCast, min_eq_left (by omega), UInt64.toNat_ofNat',
      Nat.mod_eq_of_lt hlt']
  rw [hback, ← heq]
  exact Arithmetic.double.round_round _

/-- The stored counts of the resource are below the limit of their conversion. -/
def ConvertibleResource (r : ResourceInfo) : Prop :=
  r.nominal.amount .vramBytes < 2 ^ 64 ∧ r.nominal.amount .acceleratorCount < 2 ^ 64

def ConvertibleForecast (f : TimePoint × Capacity × Capacity) : Prop :=
  f.2.1.amount .acceleratorCount < 2 ^ 64 ∧ f.2.2.amount .acceleratorCount < 2 ^ 64

/-- Every count that is saved is below the limit of its conversion. -/
structure Convertible (m : CapacityModel) : Prop where
  resource : ∀ p ∈ m.resources.entries, ConvertibleResource p.2
  forecast : ∀ f ∈ m.forecastHistory, ConvertibleForecast f

theorem takes_readSavedResource : Takes (readSavedResource (A := .double)) fun n x =>
    ∀ r, x = .ok r → n = resourceSize r ∧
      (ConvertibleResource r → savedResource (A := .double) (r.id, r) = r) := by
  refine takes_readU64.after fun id => takes_readU64.after fun generation =>
    takes_readU64.after fun fleetId => takes_readU64.after fun nodeId =>
    takes_readU64.after fun deviceId => ?_
  refine takes_readString.bind fun n₁ architecture h₁ => takes_readString.bind
    fun n₂ className h₂ => takes_readString.bind fun n₃ capability h₃ => ?_
  refine takes_readU64.after fun vram => takes_readU64.after fun accelerators =>
    takes_readU8.after fun health => takes_readU8.after fun kind => Takes.pure ?_
  intro r hr
  obtain rfl := Except.ok.inj hr
  constructor
  · simp only [resourceSize]
    omega
  · rintro ⟨hvram, haccelerators⟩
    dsimp only at hvram haccelerators
    rw [Capacity.amount_setAccelerators (A := .double), if_neg (by decide),
      Capacity.amount_setVram (A := .double), if_pos rfl] at hvram
    rw [Capacity.amount_setAccelerators (A := .double), if_pos rfl] at haccelerators
    have hnominal : (Capacity.setVram (A := .double) ∅ (toUInt64 (Arithmetic.double.round
        vram.toNat))).setAccelerators (A := .double) (toUInt64 (Arithmetic.double.round
          accelerators.toNat)) =
        (Capacity.setVram (A := .double) ∅ vram).setAccelerators (A := .double) accelerators := by
      unfold Capacity.setVram Capacity.setAccelerators
      rw [(storedCount vram).2 hvram, (storedCount accelerators).2 haccelerators]
    simp only [savedResource, Capacity.vram, Capacity.accelerators,
      Capacity.amount_setAccelerators, Capacity.amount_setVram, if_true, if_false, reduceCtorEq,
      hnominal]

theorem takes_readSavedReservation : Takes readSavedReservation fun n x =>
    ∀ r, x = .ok r → n = 41 ∧ savedReservation r = r ∧ r.interval.valid = true := by
  refine takes_readU64.after fun id => takes_readU64.after fun generation =>
    takes_readI64.after fun start => takes_readI64.after fun end_ =>
    takes_readU8.after fun strength => takes_readF64.after fun hold => Takes.pure ?_
  intro r hr
  cases hinterval : Interval.make? start end_ with
  | none => simp [hinterval] at hr
  | some interval =>
    cases hold with
    | nonFinite => simp [hinterval] at hr
    | finite v =>
      simp only [hinterval, Except.ok.injEq] at hr
      subst hr
      exact ⟨rfl, savedReservation_of_hold rfl, Interval.valid_of_make? hinterval⟩

theorem takes_readSavedRelease : Takes readSavedRelease fun n x =>
    ∀ e, x = .ok e → n = 48 ∧ savedRelease e = e := by
  refine takes_readU64.after fun sourceId => takes_readI64.after fun time =>
    takes_readI64.after fun earliest => takes_readI64.after fun latest =>
    takes_readF64.after fun conf => takes_readF64.after fun amount => Takes.pure ?_
  intro e he
  cases hchecked : checkedConfidence conf with
  | none => simp [hchecked] at he
  | some confidence =>
    cases amount with
    | nonFinite => simp [hchecked] at he
    | finite v =>
      simp only [hchecked, Except.ok.injEq] at he
      subst he
      exact ⟨rfl, savedRelease_of_release rfl⟩

theorem takes_readSavedForecast : Takes (readSavedForecast (A := .double)) fun n x =>
    ∀ f, x = .ok f → n = 24 ∧ (ConvertibleForecast f → savedForecast (A := .double) f = f) := by
  refine takes_readI64.after fun time => takes_readF64.after fun expected =>
    takes_readF64.after fun observed => Takes.pure ?_
  intro f hf
  obtain rfl := Except.ok.inj hf
  refine ⟨rfl, fun h => ?_⟩
  have hcount : ∀ n : UInt64, Arithmetic.double.round n.toNat < 2 ^ 64 →
      Capacity.setAccelerators (A := .double) ∅ (Double.ofBits (Double.toBits
        (Arithmetic.double.round n.toNat))).toUInt64 =
          Capacity.setAccelerators (A := .double) ∅ n := by
    intro n hlt
    rw [Double.ofBits_toBits (storedCount n).1, Double.toUInt64]
    unfold Capacity.setAccelerators
    rw [(storedCount n).2 hlt]
  obtain ⟨hexpected, hobserved⟩ := h
  dsimp only at hexpected hobserved
  rw [Capacity.amount_setAccelerators (A := .double), if_pos rfl] at hexpected hobserved
  simp only [savedForecast, Capacity.amount_setAccelerators, if_true, hcount _ hexpected,
    hcount _ hobserved]

section Tables

variable {α : Type} {reader : BinaryReader (Except LoadFailure α)}

theorem takes_readCount : Takes readCount fun n k => n = 4 ∧ k ≤ 1000000 := by
  refine takes_readU32.after fun k => ?_
  split_ifs with hmany
  · exact Takes.failure
  · exact Takes.pure ⟨rfl, not_lt.mp hmany⟩

theorem takes_readRecords {cost : α → ℕ} {P : α → Prop}
    (h : Takes reader fun n x => ∀ a, x = .ok a → n = cost a ∧ P a) :
    Takes (readRecords reader) fun n as =>
      n = 4 + (as.map cost).sum ∧ as.length ≤ 1000000 ∧ ∀ a ∈ as, P a := by
  have hrecord : Takes (readAccepted reader) fun n a => n = cost a ∧ P a := by
    refine h.bind fun n x hx => ?_
    cases x with
    | error e => exact Takes.failure
    | ok a => exact Takes.pure (hx a rfl)
  refine takes_readCount.bind fun n k hk data as rest hrun => ?_
  obtain ⟨rfl, hcount⟩ := hk
  obtain ⟨n, hn, hlength, rfl, has⟩ := hrecord.readMany k data as rest hrun
  exact ⟨_, hn, rfl, hlength.trans_le hcount, has⟩

end Tables

/-- A snapshot whose records are saved as they are, in no more than `size` bytes. -/
structure Settled (size : ℕ) (snap : Snapshot) : Prop where
  size_le : 24 + (snap.resources.map resourceSize).sum + 41 * snap.reservations.length +
    48 * snap.releases.length + 24 * snap.forecastHistory.length ≤ size
  resources_le : snap.resources.length ≤ 1000000
  reservations_le : snap.reservations.length ≤ 1000000
  releases_le : snap.releases.length ≤ 1000000
  forecasts_le : snap.forecastHistory.length ≤ 1000000
  resource : ∀ r ∈ snap.resources, ConvertibleResource r →
    savedResource (A := .double) (r.id, r) = r
  reservation : ∀ r ∈ snap.reservations, savedReservation r = r ∧ r.interval.valid = true
  release : ∀ e ∈ snap.releases, savedRelease e = e
  forecast : ∀ f ∈ snap.forecastHistory, ConvertibleForecast f →
    savedForecast (A := .double) f = f

theorem takes_readSnapshot : Takes (readSnapshot (A := .double)) Settled := by
  refine takes_readU64.after fun epoch => ?_
  refine (takes_readRecords takes_readSavedResource).bind fun n₁ resources h₁ => ?_
  refine (takes_readRecords takes_readSavedReservation).bind fun n₂ reservations h₂ => ?_
  refine (takes_readRecords takes_readSavedRelease).bind fun n₃ releases h₃ => ?_
  refine (takes_readRecords takes_readSavedForecast).bind fun n₄ forecastHistory h₄ => ?_
  refine Takes.bind (P := fun n _ => n = 0) (fun ts a rest hrun => ?_) fun n data hn => ?_
  · obtain ⟨rfl, rfl⟩ := Prod.mk.inj (Option.some.inj hrun)
    exact ⟨0, (Nat.zero_add _).symm, rfl⟩
  split_ifs
  · simp only [List.map_const', List.sum_replicate, smul_eq_mul] at h₂ h₃ h₄
    refine Takes.pure ⟨?_, h₁.2.1, h₂.2.1, h₃.2.1, h₄.2.1, h₁.2.2, h₂.2.2, h₃.2.2, h₄.2.2⟩
    dsimp only
    omega
  · exact Takes.failure

theorem settled_of_decodeBody {body : List UInt8} {snap : Snapshot}
    (h : decodeBody (A := .double) body = some snap) : Settled body.length snap := by
  obtain ⟨⟨snap, rest⟩, hrun, rfl⟩ := Option.map_eq_some_iff.mp h
  obtain ⟨n, hn, hsettled⟩ := takes_readSnapshot body snap rest hrun
  exact { hsettled with size_le := hsettled.size_le.trans (by omega) }

theorem restore_savedSnapshot {snap : Snapshot} {size : ℕ} (h : Settled size snap)
    (hconvertible : (restore {} snap).Convertible) :
    restore {} ((restore {} snap).savedSnapshot (A := .double)) = restore {} snap := by
  have hreservations : snap.reservations.map savedReservation = snap.reservations := by
    rw [List.map_congr_left fun r hr => (h.reservation r hr).1, List.map_id']
  have hreleases : snap.releases.map savedRelease = snap.releases := by
    rw [List.map_congr_left h.release, List.map_id']
  have hhistory : snap.forecastHistory.map (savedForecast (A := .double)) =
      snap.forecastHistory := by
    rw [List.map_congr_left fun f hf => h.forecast f hf (hconvertible.forecast f hf),
      List.map_id']
  have hresources : ∀ m : OrderedMap ResourceId ResourceInfo,
      m = snap.resources.foldl (fun rs r => rs.insert r.id r) ∅ →
        (m.entries.map (savedResource (A := .double))).foldl
          (fun rs r => rs.insert r.id r) ∅ = m := by
    rintro m rfl
    rw [List.foldl_map]
    refine Eq.trans (List.foldl_ext _ _ _ fun rs p hp => ?_) (OrderedMap.foldl_insert_entries _)
    obtain ⟨id, r⟩ := p
    obtain ⟨hmem, hid⟩ := OrderedMap.mem_foldl_insert hp
    obtain rfl : r.id = id := hid
    have hsaved := h.resource r hmem (hconvertible.resource (r.id, r) hp)
    exact congrArg (rs.insert r.id) hsaved
  simp only [restore, savedSnapshot, hreservations, hreleases, hhistory, hresources]

theorem savedSize_restore {snap : Snapshot} {size : ℕ} (h : Settled size snap) :
    (restore {} snap).savedSize ≤ size + 20 := by
  have hsub := OrderedMap.values_foldl_insert_subperm ResourceInfo.id snap.resources
  have hsum : (((restore {} snap).resources.entries.map Prod.snd).map resourceSize).sum ≤
      (snap.resources.map resourceSize).sum := by
    obtain ⟨rs, hperm, hrs⟩ := hsub
    exact ((hperm.map _).sum_eq).symm.trans_le ((hrs.map _).sum_le_sum fun _ _ => Nat.zero_le _)
  rw [List.map_map] at hsum
  have hsize := h.size_le
  change 44 + (List.map (resourceSize ∘ Prod.snd) (restore {} snap).resources.entries).sum +
    41 * snap.reservations.length + 48 * snap.releases.length +
    24 * snap.forecastHistory.length ≤ _
  omega

theorem withinLimits_restore {snap : Snapshot} {size : ℕ} (h : Settled size snap)
    (hsize : size + 20 ≤ maxBytes) : (restore {} snap).WithinLimits where
  size := (savedSize_restore h).trans hsize
  resources := by
    have hle := (OrderedMap.values_foldl_insert_subperm ResourceInfo.id
      snap.resources).length_le
    rw [List.length_map] at hle
    exact hle.trans h.resources_le
  reservations := h.reservations_le
  releases := h.releases_le
  forecastHistory := h.forecasts_le
  intervals r hr := (h.reservation r hr).2

/-- Whatever file a fresh model accepts, the file that it then saves restores just it, as long
as the stored counts are not too large to be converted. -/
theorem load_resaved {bytes : List UInt8} (haccepted : (load (A := .double) {} bytes).2 = .accepted)
    (hconvertible : (load (A := .double) {} bytes).1.Convertible) :
    load (A := .double) {} (load (A := .double) {} bytes).1.save =
      ((load (A := .double) {} bytes).1, .accepted) := by
  obtain ⟨hsize, body, snap, hbody, hsnap⟩ :=
    (load_accepted_iff (A := .double) {} bytes).mp haccepted
  have hdoubles : (load (A := .double) {} bytes).1.StoresDoubles :=
    load_preserves (A := .double) (preserves_storesDoubles (A := .double)) storesDoubles_empty bytes
  have hsettled := settled_of_decodeBody hsnap
  have hload : load (A := .double) {} bytes = (restore {} snap, .accepted) :=
    load_eq_restore (A := .double) hsize hbody hsnap
  rw [eq_framed_of_checkedBody hbody, length_framed] at hsize
  rw [hload] at hdoubles hconvertible ⊢
  have hsaved := load_save (A := .double) hdoubles (withinLimits_restore hsettled hsize)
  rw [restore_savedSnapshot hsettled hconvertible] at hsaved
  exact hsaved

/-- The file keeps the memory as it is, and the restored model rounds it. -/
def oddMemory : ResourceInfo where
  id := ⟨1⟩
  generation := ⟨1⟩
  worker := ⟨1⟩
  bootId := ⟨1⟩
  nominal := (Capacity.setVram ∅ 9007199254740993).setAccelerators 4

def forecastHeld : CapacityModel :=
  Runs.run step {} [.registerWorker ⟨1⟩ ⟨1⟩, .publishResource oddMemory,
    .publishReservation (hardHold 1 fiveToTen 4), .recordForecast 5 (acceleratorBase 4)]

theorem forecastHeld_storesDoubles : forecastHeld.StoresDoubles :=
  ⟨List.forall_mem_singleton.mpr ⟨0x4010000000000000, by decide +kernel⟩,
    fun _ h => absurd h List.not_mem_nil⟩

theorem load_resaved_forecastHeld :
    load (A := .double) {} (load (A := .double) {} forecastHeld.save).1.save =
      ((load (A := .double) {} forecastHeld.save).1, .accepted) := by
  have hload := load_save (A := .double) forecastHeld_storesDoubles ⟨by decide +kernel,
    by decide +kernel, by decide +kernel, by decide +kernel, by decide +kernel, by decide +kernel⟩
  refine load_resaved (by rw [hload]) ?_
  rw [hload]
  exact ⟨List.forall_mem_singleton.mpr ⟨by decide +kernel, by decide +kernel⟩,
    List.forall_mem_singleton.mpr ⟨by decide +kernel, by decide +kernel⟩⟩

end CapacityModel

end CapacityFabric
