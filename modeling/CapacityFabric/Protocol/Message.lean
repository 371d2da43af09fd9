import CapacityFabric.Persistence.Binary

/-!
# Protocol messages
-/

namespace CapacityFabric

inductive MessageType
  | hello
  | register
  | publishResource
  | publishCapacity
  | publishRelease
  | publishReservation
  | invalidateResource
  | advanceGeneration
  | queryCapacity
  | queryFeasibility
  | queryEarliestFit
  | queryHeadroom
  | createScenario
  | evaluateScenario
  | save
  | revalidate
  | shutdown
  | error
  | unnamed (offset : Fin 238)
  deriving DecidableEq

namespace MessageType

/-- The values that no enumerator names are `0` and those from 19 on. -/
def code : MessageType → UInt8
  | hello => 1
  | register => 2
  | publishResource => 3
  | publishCapacity => 4
  | publishRelease => 5
  | publishReservation => 6
  | invalidateResource => 7
  | advanceGeneration => 8
  | queryCapacity => 9
  | queryFeasibility => 10
  | queryEarliestFit => 11
  | queryHeadroom => 12
  | createScenario => 13
  | evaluateScenario => 14
  | save => 15
  | revalidate => 16
  | shutdown => 17
  | error => 18
  | unnamed offset => if offset = 0 then 0 else UInt8.ofNat (offset.val + 18)

def ofCode (c : UInt8) : MessageType :=
  match c.toNat with
  | 0 => unnamed 0
  | 1 => hello
  | 2 => register
  | 3 => publishResource
  | 4 => publishCapacity
  | 5 => publishRelease
  | 6 => publishReservation
  | 7 => invalidateResource
  | 8 => advanceGeneration
  | 9 => queryCapacity
  | 10 => queryFeasibility
  | 11 => queryEarliestFit
  | 12 => queryHeadroom
  | 13 => createScenario
  | 14 => evaluateScenario
  | 15 => save
  | 16 => revalidate
  | 17 => shutdown
  | 18 => error
  | n + 19 => unnamed (Fin.ofNat 238 (n + 1))

theorem ofCode_code (x : MessageType) : ofCode x.code = x := by
  cases x with
  | unnamed offset =>
    obtain ⟨_ | n, hlt⟩ := offset
    · rfl
    · have hne : (⟨n + 1, hlt⟩ : Fin 238) ≠ 0 := Fin.ne_of_val_ne (Nat.succ_ne_zero n)
      have hcode := FixedWidth.toNat_offset (k := 18) (⟨n + 1, hlt⟩ : Fin 238) (by decide)
      rw [code, if_neg hne, ofCode, hcode]
      exact congrArg unnamed (Fin.ofNat_val_eq_self (⟨n + 1, hlt⟩ : Fin 238))
  | _ => rfl

theorem code_ofCode (c : UInt8) : (ofCode c).code = c := by
  have hlt := c.toNat_lt
  apply UInt8.toNat_inj.mp
  unfold ofCode
  split
  case h_20 n h =>
    have hval : (Fin.ofNat 238 (n + 1)).val = n + 1 := Nat.mod_eq_of_lt (by omega)
    have hne : Fin.ofNat 238 (n + 1) ≠ 0 := by
      refine Fin.ne_of_val_ne ?_
      rw [hval]
      exact Nat.succ_ne_zero n
    rw [code, if_neg hne, FixedWidth.toNat_offset _ (by decide), hval, h]
  all_goals
    rename_i h
    exact h.symm

end MessageType

structure FramedMessage where
  type : MessageType
  seq : UInt32
  payload : List UInt8

end CapacityFabric
