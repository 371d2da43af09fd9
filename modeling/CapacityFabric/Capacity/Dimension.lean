import Mathlib.Tactic

/-!
# Capacity dimensions

The dimensions of the multi-dimensional capacity model, in the order of their
codes.  A code read from the wire may be none of the named ones; such a value is
a dimension without a name.
-/

namespace CapacityFabric

inductive Dimension
  | acceleratorCount
  | acceleratorCompute
  | vramBytes
  | contiguousVramBytes
  | pinnedHostMemoryBytes
  | pageableHostMemoryBytes
  | cpuCount
  | storageBytes
  | storageBandwidth
  | pcieBandwidth
  | networkBandwidth
  | collectiveBandwidth
  | queueSlots
  | modelResidencySlots
  | adapterResidencySlots
  | tensorStateResidencyBytes
  | transferBudgetBytes
  | powerHeadroom
  | nodeCount
  | rackLocalCount
  | topologyLocalCount
  | unnamed (offset : Fin 235)

namespace Dimension

def code : Dimension → ℕ
  | acceleratorCount => 0
  | acceleratorCompute => 1
  | vramBytes => 2
  | contiguousVramBytes => 3
  | pinnedHostMemoryBytes => 4
  | pageableHostMemoryBytes => 5
  | cpuCount => 6
  | storageBytes => 7
  | storageBandwidth => 8
  | pcieBandwidth => 9
  | networkBandwidth => 10
  | collectiveBandwidth => 11
  | queueSlots => 12
  | modelResidencySlots => 13
  | adapterResidencySlots => 14
  | tensorStateResidencyBytes => 15
  | transferBudgetBytes => 16
  | powerHeadroom => 17
  | nodeCount => 18
  | rackLocalCount => 19
  | topologyLocalCount => 20
  | unnamed offset => offset.val + 21

def ofCode : ℕ → Dimension
  | 0 => acceleratorCount
  | 1 => acceleratorCompute
  | 2 => vramBytes
  | 3 => contiguousVramBytes
  | 4 => pinnedHostMemoryBytes
  | 5 => pageableHostMemoryBytes
  | 6 => cpuCount
  | 7 => storageBytes
  | 8 => storageBandwidth
  | 9 => pcieBandwidth
  | 10 => networkBandwidth
  | 11 => collectiveBandwidth
  | 12 => queueSlots
  | 13 => modelResidencySlots
  | 14 => adapterResidencySlots
  | 15 => tensorStateResidencyBytes
  | 16 => transferBudgetBytes
  | 17 => powerHeadroom
  | 18 => nodeCount
  | 19 => rackLocalCount
  | 20 => topologyLocalCount
  | n + 21 => unnamed (Fin.ofNat 235 n)

theorem ofCode_code (d : Dimension) : ofCode d.code = d := by
  cases d <;> first | rfl | exact congrArg unnamed (Fin.ofNat_val_eq_self _)

theorem code_injective : Function.Injective code :=
  Function.LeftInverse.injective ofCode_code

theorem code_lt (d : Dimension) : d.code < 256 := by
  cases d with
  | unnamed offset =>
    have hlt := offset.isLt
    rw [code]
    omega
  | _ => decide

instance : LinearOrder Dimension := LinearOrder.lift' code code_injective

end Dimension

def dimensionName : Dimension → String
  | .acceleratorCount => "accelerator_count"
  | .acceleratorCompute => "accelerator_compute"
  | .vramBytes => "vram_bytes"
  | .contiguousVramBytes => "contiguous_vram_bytes"
  | .pinnedHostMemoryBytes => "pinned_host_memory_bytes"
  | .pageableHostMemoryBytes => "pageable_host_memory_bytes"
  | .cpuCount => "cpu_count"
  | .storageBytes => "storage_bytes"
  | .storageBandwidth => "storage_bandwidth"
  | .pcieBandwidth => "pcie_bandwidth"
  | .networkBandwidth => "network_bandwidth"
  | .collectiveBandwidth => "collective_bandwidth"
  | .queueSlots => "queue_slots"
  | .modelResidencySlots => "model_residency_slots"
  | .adapterResidencySlots => "adapter_residency_slots"
  | .tensorStateResidencyBytes => "tensor_state_residency_bytes"
  | .transferBudgetBytes => "transfer_budget_bytes"
  | .powerHeadroom => "power_headroom"
  | .nodeCount => "node_count"
  | .rackLocalCount => "rack_local_count"
  | .topologyLocalCount => "topology_local_count"
  | .unnamed _ => "unknown"

def dimensionIsBytes : Dimension → Bool
  | .vramBytes | .contiguousVramBytes | .pinnedHostMemoryBytes | .pageableHostMemoryBytes
  | .storageBytes | .tensorStateResidencyBytes | .transferBudgetBytes => true
  | _ => false

def dimensionIsRate : Dimension → Bool
  | .storageBandwidth | .pcieBandwidth | .networkBandwidth | .collectiveBandwidth => true
  | _ => false

end CapacityFabric
