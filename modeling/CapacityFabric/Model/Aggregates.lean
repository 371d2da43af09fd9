import CapacityFabric.Model.Operations
import CapacityFabric.Model.Query
import CapacityFabric.Query.Monotone

/-!
# What views add up

A view adds the capacities of its resources and lists one device record for each
device id.
-/

namespace CapacityFabric

theorem amount_foldl_add (f : ResourceInfo → Capacity) (rs : List ResourceInfo) (c : Capacity)
    (d : Dimension) :
    (rs.foldl (fun total r => total.add (f r)) c).amount d =
      c.amount d + (rs.map fun r => (f r).amount d).sum := by
  induction rs generalizing c with
  | nil => simp
  | cons r rs ih =>
    rw [List.foldl_cons, ih, Capacity.amount_add, List.map_cons, List.sum_cons, add_assoc]

theorem amount_totalOf (f : ResourceInfo → Capacity) (rs : List ResourceInfo) (d : Dimension) :
    (totalOf f rs).amount d = (rs.map fun r => (f r).amount d).sum := by
  rw [totalOf, amount_foldl_add, Capacity.amount_empty, zero_add]

theorem has_foldl_add [A : Arithmetic] (f : ResourceInfo → Capacity) (rs : List ResourceInfo)
    (c : Capacity) (d : Dimension) :
    (rs.foldl (fun total r => total.add (f r)) c).has d =
      (c.has d || rs.any fun r => (f r).has d) := by
  induction rs generalizing c with
  | nil => simp
  | cons r rs ih => rw [List.foldl_cons, ih, Capacity.has_add, List.any_cons, Bool.or_assoc]

theorem has_totalOf [A : Arithmetic] (f : ResourceInfo → Capacity) (rs : List ResourceInfo)
    (d : Dimension) :
    (totalOf f rs).has d = rs.any fun r => (f r).has d := by
  rw [totalOf, has_foldl_add]
  rfl

section Rounded

variable [A : Arithmetic]

theorem isRounded_foldl_add (f : ResourceInfo → Capacity) (rs : List ResourceInfo) {c : Capacity}
    (hc : c.IsRounded) : (rs.foldl (fun total r => total.add (f r)) c).IsRounded := by
  induction rs generalizing c with
  | nil => exact hc
  | cons r rs ih => exact ih (hc.add (f r))

theorem isRounded_totalOf (f : ResourceInfo → Capacity) (rs : List ResourceInfo) :
    (totalOf f rs).IsRounded :=
  isRounded_foldl_add f rs Capacity.isRounded_empty

theorem amount_foldl_add_mono (f : ResourceInfo → Capacity) {d : Dimension}
    {rs rs' : List ResourceInfo} (h : rs.Sublist rs') {c c' : Capacity} (hc' : c'.IsRounded)
    (hle : c.amount d ≤ c'.amount d) :
    (rs.foldl (fun total r => total.add (f r)) c).amount d ≤
      (rs'.foldl (fun total r => total.add (f r)) c').amount d := by
  induction h generalizing c c' with
  | slnil => exact hle
  | cons r _ ih => exact ih (hc'.add (f r)) (hle.trans (hc'.amount_le_add (f r) d))
  | cons_cons r _ ih => exact ih (hc'.add (f r)) (Capacity.amount_add_mono hle (f r))

theorem totalOf_le_of_sublist {rs rs' : List ResourceInfo} (h : rs.Sublist rs')
    (f : ResourceInfo → Capacity) (d : Dimension) :
    (totalOf f rs).amount d ≤ (totalOf f rs').amount d :=
  amount_foldl_add_mono f h Capacity.isRounded_empty le_rfl

theorem amount_le_totalOf {f : ResourceInfo → Capacity} {rs : List ResourceInfo}
    {r : ResourceInfo} (hr : r ∈ rs) (hrounded : (f r).IsRounded) (d : Dimension) :
    (f r).amount d ≤ (totalOf f rs).amount d := by
  refine le_trans ?_ (totalOf_le_of_sublist (List.singleton_sublist.mpr hr) f d)
  show (f r).amount d ≤ ((∅ : Capacity).add (f r)).amount d
  rw [Capacity.amount_add_eq, Capacity.amount_empty, zero_add, hrounded d]
  split_ifs with hd
  · exact le_rfl
  · exact (Capacity.amount_of_not_has (Bool.eq_false_iff.mpr hd)).le

end Rounded

theorem entry_holdCapacity (hold : CapacityDelta) (d : Dimension) :
    (holdCapacity hold).entry d =
      (hold.changes.find? d).elim none fun v => if |v| = 0 then none else some |v| := by
  refine OrderedMap.foldl_pointwise Capacity.entry
    (fun c k v => c.setAmount k (if v < 0 then -v else v))
    (fun _ v _ => if |v| = 0 then none else some |v|) ?_ hold.changes ∅ d
  intro s k v k'
  have habs : (if v < 0 then -v else v) = |v| := by
    split_ifs with hv
    · exact (abs_of_neg hv).symm
    · exact (abs_of_nonneg (not_lt.mp hv)).symm
  rw [habs, Capacity.entry_setAmount (abs_nonneg v)]

theorem amount_holdCapacity (hold : CapacityDelta) (d : Dimension) :
    (holdCapacity hold).amount d = |hold.at_ d| := by
  rw [Capacity.amount_eq, entry_holdCapacity, CapacityDelta.at_, amountIn]
  cases hold.changes.find? d with
  | none => simp
  | some v =>
    simp only [Option.elim_some, Option.getD_some]
    split_ifs with h
    · exact h.symm
    · rfl

/-- What the hard reservations active at `now` hold of a dimension. -/
def heldNow (reservations : List Reservation) (now : TimePoint) (d : Dimension) : ℚ :=
  ((reservations.filter (holdsNow now)).map fun rv => |rv.hold.at_ d|).sum

theorem heldNow_nonneg (reservations : List Reservation) (now : TimePoint) (d : Dimension) :
    0 ≤ heldNow reservations now d := by
  apply List.sum_nonneg
  intro x hx
  obtain ⟨rv, -, rfl⟩ := List.mem_map.mp hx
  exact abs_nonneg _

/-- The loop of `effectiveCapacity` from any capacity on. -/
def subtractHolds [A : Arithmetic] (now : TimePoint) (reservations : List Reservation)
    (c : Capacity) : Capacity :=
  reservations.foldl (fun effective rv =>
    if holdsNow now rv then effective.subtractClamp (holdCapacity rv.hold) else effective) c

theorem subtractHolds_cons [A : Arithmetic] (now : TimePoint) (rv : Reservation)
    (reservations : List Reservation) (c : Capacity) :
    subtractHolds now (rv :: reservations) c = subtractHolds now reservations
      (if holdsNow now rv then c.subtractClamp (holdCapacity rv.hold) else c) := rfl

theorem amount_subtractHolds (now : TimePoint) (reservations : List Reservation) (c : Capacity)
    (d : Dimension) :
    (subtractHolds now reservations c).amount d =
      max (c.amount d - heldNow reservations now d) 0 := by
  induction reservations generalizing c with
  | nil => simp [subtractHolds, heldNow, c.amount_nonneg]
  | cons rv reservations ih =>
    have hnonneg := heldNow_nonneg reservations now d
    rw [subtractHolds_cons]
    by_cases hrv : holdsNow now rv = true
    · have hheld : heldNow (rv :: reservations) now d =
          |rv.hold.at_ d| + heldNow reservations now d := by
        simp [heldNow, hrv]
      rw [if_pos hrv, ih, Capacity.amount_subtractClamp, amount_holdCapacity, hheld, ← sub_sub]
      rcases le_total (c.amount d - |rv.hold.at_ d|) 0 with hle | hle
      · rw [max_eq_right hle, max_eq_right (by linarith), max_eq_right (by linarith)]
      · rw [max_eq_left hle]
    · have hheld : heldNow (rv :: reservations) now d = heldNow reservations now d := by
        simp [heldNow, hrv]
      rw [if_neg hrv, ih, hheld]

theorem amount_effectiveCapacity (view : FleetView) (d : Dimension) :
    (effectiveCapacity view).amount d =
      max (view.available.amount d - heldNow view.reservations view.now d) 0 :=
  amount_subtractHolds _ _ _ d

theorem has_subtractHolds [A : Arithmetic] (now : TimePoint) (reservations : List Reservation)
    (c : Capacity) (d : Dimension) :
    (subtractHolds now reservations c).has d =
      (c.has d || reservations.any fun rv => holdsNow now rv && (holdCapacity rv.hold).has d) := by
  induction reservations generalizing c with
  | nil => simp [subtractHolds]
  | cons rv reservations ih =>
    rw [subtractHolds_cons, ih, List.any_cons]
    by_cases hrv : holdsNow now rv = true
    · rw [if_pos hrv, Capacity.has_subtractClamp, hrv, Bool.true_and, Bool.or_assoc]
    · rw [if_neg hrv, Bool.eq_false_iff.mpr hrv, Bool.false_and, Bool.false_or]

section Rounded

variable [A : Arithmetic] {now : TimePoint} {reservations reservations' : List Reservation}
  {c c' : Capacity} {d : Dimension}

theorem amount_subtractHolds_mono (h : c.amount d ≤ c'.amount d) :
    (subtractHolds now reservations c).amount d ≤ (subtractHolds now reservations c').amount d := by
  induction reservations generalizing c c' with
  | nil => exact h
  | cons rv reservations ih =>
    rw [subtractHolds_cons, subtractHolds_cons]
    apply ih
    split_ifs
    · exact Capacity.amount_subtractClamp_mono h _
    · exact h

theorem amount_subtractHolds_le_of_sublist (hc : c.IsRounded)
    (h : reservations.Sublist reservations') :
    (subtractHolds now reservations' c).amount d ≤ (subtractHolds now reservations c).amount d := by
  induction h generalizing c with
  | slnil => exact le_rfl
  | cons rv _ ih =>
    rw [subtractHolds_cons]
    refine (amount_subtractHolds_mono ?_).trans (ih hc)
    split_ifs
    · exact hc.amount_subtractClamp_le _ d
    · exact le_rfl
  | cons_cons rv _ ih =>
    rw [subtractHolds_cons, subtractHolds_cons]
    apply ih
    split_ifs
    · exact hc.subtractClamp _
    · exact hc

theorem amount_subtractHolds_of_none
    (h : (reservations.any fun rv => holdsNow now rv && (holdCapacity rv.hold).has d) = false) :
    (subtractHolds now reservations c).amount d = c.amount d := by
  induction reservations generalizing c with
  | nil => rfl
  | cons rv reservations ih =>
    rw [List.any_cons, Bool.or_eq_false_iff] at h
    rw [subtractHolds_cons, ih h.2]
    split_ifs with hrv
    · have hnone : (holdCapacity rv.hold).has d = false := by simpa [hrv] using h.1
      rw [Capacity.amount_subtractClamp_eq, hnone, if_neg Bool.false_ne_true]
    · rfl

end Rounded

theorem has_subtractHolds_mono [A : Arithmetic] {c c' : Capacity} {d : Dimension}
    (h : c.has d = true → c'.has d = true) (now : TimePoint) (reservations : List Reservation) :
    (subtractHolds now reservations c).has d = true →
      (subtractHolds now reservations c').has d = true := by
  rw [has_subtractHolds, has_subtractHolds, Bool.or_eq_true, Bool.or_eq_true]
  exact Or.imp_left h

namespace CapacityModel

/-- The resources whose free capacity a view adds up. -/
def counted (m : CapacityModel) : List ResourceInfo := m.currentResources.filter m.isCurrent

theorem available_buildView [A : Arithmetic] (m : CapacityModel) (now : TimePoint) :
    (m.buildView now).available = totalOf ResourceInfo.free m.counted := rfl

/-- Any resource that is counted makes the view fresh. -/
theorem fresh_buildView_iff [A : Arithmetic] (m : CapacityModel) (now : TimePoint) :
    (m.buildView now).freshness = .fresh ↔ m.counted ≠ [] := by
  have hcounted : m.counted ≠ [] ↔ m.currentResources.any m.isCurrent = true := by
    rw [counted, ne_eq, List.filter_eq_nil_iff, List.any_eq_true]
    push Not
    rfl
  rw [hcounted]
  cases hany : m.currentResources.any m.isCurrent with
  | false =>
    simp only [buildView, hany]
    split_ifs <;> simp_all
  | true =>
    have hne : m.currentResources.isEmpty = false := by
      obtain ⟨r, hr, -⟩ := List.any_eq_true.mp hany
      exact List.isEmpty_eq_false_iff_exists_mem.mpr ⟨r, hr⟩
    simp [buildView, hany, hne]

theorem mem_counted_iff {m : CapacityModel} {id : ResourceId} {r : ResourceInfo}
    (hr : m.resources.find? id = some r) : r ∈ m.counted ↔ m.isCurrent r = true := by
  have hmem : r ∈ m.currentResources :=
    List.mem_map.mpr ⟨(id, r), OrderedMap.find?_eq_some_iff.mp hr, rfl⟩
  rw [counted, List.mem_filter]
  exact and_iff_right hmem

theorem find?_deviceIndex (m : CapacityModel) (rs : List ResourceInfo) (k : DeviceId) :
    (m.deviceIndex rs).find? k =
      (rs.filter fun r => r.deviceId = k).getLast?.map m.viewDevice := by
  rw [deviceIndex, OrderedMap.find?_foldl_insert, OrderedMap.find?_empty, Option.or_none]

theorem viewDevice_congr {m m' : CapacityModel} {r : ResourceInfo}
    (h : m'.devices.find? r.deviceId = m.devices.find? r.deviceId) :
    m'.viewDevice r = m.viewDevice r := by
  rw [viewDevice, h, viewDevice]

theorem mem_viewDevices_iff {m : CapacityModel} {rs : List ResourceInfo} {v : DeviceInfo} :
    v ∈ m.viewDevices rs ↔
      ∃ r, (rs.filter fun x => x.deviceId = r.deviceId).getLast? = some r ∧
        v = m.viewDevice r := by
  rw [viewDevices, List.mem_map]
  constructor
  · rintro ⟨⟨k, v⟩, hp, rfl⟩
    have hfound := OrderedMap.find?_eq_some_iff.mpr hp
    rw [find?_deviceIndex] at hfound
    obtain ⟨r, hlast, hr⟩ := Option.map_eq_some_iff.mp hfound
    have hdevice := of_decide_eq_true (List.mem_filter.mp (List.mem_of_getLast? hlast)).2
    exact ⟨r, hdevice ▸ hlast, hr.symm⟩
  · rintro ⟨r, hlast, rfl⟩
    refine ⟨(r.deviceId, m.viewDevice r), OrderedMap.find?_eq_some_iff.mp ?_, rfl⟩
    rw [find?_deviceIndex, hlast, Option.map_some]

theorem mem_viewDevices {m : CapacityModel} {rs : List ResourceInfo} {v : DeviceInfo}
    (hv : v ∈ m.viewDevices rs) : ∃ r ∈ rs, v = m.viewDevice r := by
  obtain ⟨r, hlast, hr⟩ := mem_viewDevices_iff.mp hv
  exact ⟨r, (List.mem_filter.mp (List.mem_of_getLast? hlast)).1, hr⟩

theorem length_viewDevices_le (m : CapacityModel) (rs : List ResourceInfo) :
    (m.viewDevices rs).length ≤ rs.length := by
  have h : (m.deviceIndex rs).size ≤ 0 + rs.length :=
    OrderedMap.size_foldl_insert_le ResourceInfo.deviceId m.viewDevice rs ∅
  rw [viewDevices, List.length_map]
  exact h.trans_eq (zero_add _)

def KeepsUnflagged (m : CapacityModel) : Prop :=
  ∀ id v, m.devices.find? id = some v → v.drained = false ∧ v.maintenance = false

theorem KeepsUnflagged.step {m : CapacityModel} (ih : m.KeepsUnflagged) (op : ModelOp) :
    (m.step op).KeepsUnflagged := by
  -- An operation alters one record at most, and never its flags.
  have halter : ∀ (k : DeviceId) (f : DeviceInfo → DeviceInfo),
      (∀ v, (f v).drained = v.drained ∧ (f v).maintenance = v.maintenance) →
      ∀ id v, (m.devices.alter k fun o => o.map f).find? id = some v →
        v.drained = false ∧ v.maintenance = false := by
    intro k f hf id v hv
    rw [OrderedMap.find?_alter] at hv
    split_ifs at hv
    · obtain ⟨w, hw, rfl⟩ := Option.map_eq_some_iff.mp hv
      rw [(hf w).1, (hf w).2]
      exact ih _ w hw
    · exact ih id v hv
  rcases step_cases m op with ⟨bytes, -, heq⟩ | heq | haccepted
  · rwa [heq, KeepsUnflagged, load_devices]
  · rwa [heq]
  · generalize m.step op = m' at haccepted ⊢
    cases haccepted with
    | publishResource =>
      intro id v hv
      rw [OrderedMap.find?_insert] at hv
      split_ifs at hv
      · rw [← Option.some.inj hv]
        exact ⟨rfl, rfl⟩
      · exact ih id v hv
    | advanceResourceGeneration => exact halter _ _ fun _ => ⟨rfl, rfl⟩
    | setHealth => exact halter _ _ fun _ => ⟨rfl, rfl⟩
    | _ => exact ih

theorem keepsUnflagged_of_reachable {m : CapacityModel} (h : Reachable m) : m.KeepsUnflagged :=
  h.invariant (fun _ _ hv => absurd hv (by simp)) fun _ op ih => ih.step op

/-- The flags of a resource never reach the device record of a view. -/
theorem unflagged_viewDevice {m : CapacityModel} (h : Reachable m) (r : ResourceInfo) :
    (m.viewDevice r).drained = false ∧ (m.viewDevice r).maintenance = false := by
  change ((m.devices.find? r.deviceId).getD {}).drained = false ∧
    ((m.devices.find? r.deviceId).getD {}).maintenance = false
  cases hv : m.devices.find? r.deviceId with
  | none => exact ⟨rfl, rfl⟩
  | some v => exact keepsUnflagged_of_reachable h _ v hv

theorem perm_viewDevices_of_nodup (m : CapacityModel) {rs : List ResourceInfo}
    (h : (rs.map ResourceInfo.deviceId).Nodup) :
    (m.viewDevices rs).Perm (rs.map m.viewDevice) := by
  have hperm := (OrderedMap.perm_foldl_insert ResourceInfo.deviceId m.viewDevice h).map Prod.snd
  rwa [List.map_map] at hperm

theorem nodup_viewDevices (m : CapacityModel) (rs : List ResourceInfo) :
    ((m.viewDevices rs).map DeviceInfo.id).Nodup := by
  have hkey : ∀ p ∈ (m.deviceIndex rs).entries, p.2.id = p.1 := by
    intro p hp
    have hfound := OrderedMap.find?_eq_some_iff.mpr hp
    rw [find?_deviceIndex, Option.map_eq_some_iff] at hfound
    obtain ⟨r, hr, hv⟩ := hfound
    have hdevice := of_decide_eq_true (List.mem_filter.mp (List.mem_of_getLast? hr)).2
    rw [← hv, ← hdevice]
    rfl
  have hids : (m.viewDevices rs).map DeviceInfo.id = (m.deviceIndex rs).entries.map Prod.fst := by
    rw [viewDevices, List.map_map]
    exact List.map_congr_left hkey
  rw [hids]
  exact (m.deviceIndex rs).sorted.map _ fun _ _ hlt => hlt.ne

end CapacityModel

end CapacityFabric
