import SlotLanes.Proofs.Capacity
import SlotLanes.Proofs.Notices

/-! Slots whose children need more than they have. Needs are summed in sixty-four bits, and a
greater sum counts as the greatest count: a capacity below that is held against the true sum.
A slot of the greatest capacity is never refused, whatever hangs below it. -/
namespace SlotLanes

variable {client : Client} {active : List String} {path : String} {capacity : UInt64}

theorem lanes_ne_nil_of_exceeds {lanes : List UInt64} (exceeds : capacity.toNat < exactTotal lanes) :
    lanes ≠ [] := by
  rintro rfl
  simp [exactTotal] at exceeds

/-- That a slot has too little is reported by that slot alone: below itself it is on the
branch, and is not settled again. -/
theorem overCapacity_own_iff {total limit : UInt64} (noDevice : client.maxLanes path = none)
    (slot : client.lanes path = some capacity) (fresh : path ∉ active) :
    .overCapacity path total limit ∈ (walk client active path).notices ↔
      capacity < totalLanes (below client active path).lanes ∧
        total = totalLanes (below client active path).lanes ∧ limit = capacity := by
  have notBelow : ¬ ∃ child ∈ client.children path,
      .overCapacity path total limit ∈ (walk client (path :: active) child).notices := by
    rintro ⟨child, _, inside⟩
    exact fresh_of_overCapacity inside List.mem_cons_self
  rw [mem_notices_slot noDevice slot fresh, or_iff_right notBelow]
  simp

theorem walk_lanes_of_exceeding (noDevice : client.maxLanes path = none)
    (slot : client.lanes path = some capacity) (fresh : path ∉ active)
    (exceeds : capacity.toNat < exactTotal (below client active path).lanes) :
    (walk client active path).lanes =
      if capacity < greatestCount then [] else (below client active path).lanes := by
  rw [walk_slot noDevice slot fresh]
  split
  next roomy => exact settle_exceeding roomy exceeds
  next greatest =>
    have notOver : ¬ capacity < totalLanes (below client active path).lanes :=
      fun less => greatest (lt_totalLanes_iff.mp less).1
    have full : ¬ totalLanes (below client active path).lanes < capacity := by
      rw [UInt64.lt_iff_toNat_lt, totalLanes_toNat]
      rw [UInt64.lt_iff_toNat_lt] at greatest
      have atMost := toNat_le_greatestCount capacity
      omega
    simp [settle, notOver, full]

/-- A slot whose children really need more than it has is refused, and reported with
its own capacity, if and only if that capacity is below the greatest count. With the
greatest capacity it keeps all that its children have, and nothing is reported of it. -/
theorem exceeding_slot_refused_iff (client : Client) (active : List String) (path : String)
    (capacity : UInt64) (noDevice : client.maxLanes path = none)
    (slot : client.lanes path = some capacity) (fresh : path ∉ active)
    (exceeds : capacity.toNat < exactTotal (below client active path).lanes) :
    ((walk client active path).lanes = [] ↔ capacity < greatestCount) ∧
      (∀ total limit, .overCapacity path total limit ∈ (walk client active path).notices ↔
        capacity < greatestCount ∧ total = totalLanes (below client active path).lanes ∧
          limit = capacity) ∧
      (capacity = greatestCount →
        (walk client active path).lanes = (below client active path).lanes) := by
  have lanes := walk_lanes_of_exceeding noDevice slot fresh exceeds
  refine ⟨?_, fun total limit => ?_, ?_⟩
  · rw [lanes]
    split
    next roomy => simp [roomy]
    next greatest => simp [greatest, lanes_ne_nil_of_exceeds exceeds]
  · rw [overCapacity_own_iff noDevice slot fresh, lt_totalLanes_iff]
    simp [exceeds]
  · rintro rfl
    simpa using lanes

/-- A riser with a device of the greatest width and one more lane below it. -/
def crowdedRiser (capacity : UInt64) : Client where
  bus _ := none
  maxLanes path :=
    if path = "accelerator" then some greatestCount else if path = "nic" then some 1 else none
  lanes path := if path = "riser" then some capacity else none
  children path := if path = "riser" then ["accelerator", "nic"] else []
  slots := ["riser"]
  mem_slots path _ slot := by
    split at slot <;> simp_all

theorem crowdedRiser_below (capacity : UInt64) :
    below (crowdedRiser capacity) [] "riser" =
      ⟨[greatestCount, 1], [], [.maxLanes "accelerator", .maxLanes "nic"]⟩ := by
  have accelerator : (crowdedRiser capacity).maxLanes "accelerator" = some greatestCount := rfl
  have nic : (crowdedRiser capacity).maxLanes "nic" = some 1 := rfl
  have children : (crowdedRiser capacity).children "riser" = ["accelerator", "nic"] := rfl
  simp [below, children, walk_device accelerator, walk_device nic, Visit.concat]

theorem crowdedRiser_sixteen_refused :
    (crowdedRiser 16).maxLanes "riser" = none ∧ (crowdedRiser 16).lanes "riser" = some 16 ∧
      "riser" ∉ ([] : List String) ∧
      (16 : UInt64).toNat < exactTotal (below (crowdedRiser 16) [] "riser").lanes ∧
      (walk (crowdedRiser 16) [] "riser").lanes = [] ∧
      .overCapacity "riser" greatestCount 16 ∈ (walk (crowdedRiser 16) [] "riser").notices := by
  have exceeds : (16 : UInt64).toNat < exactTotal (below (crowdedRiser 16) [] "riser").lanes := by
    rw [crowdedRiser_below]
    decide
  have refused := exceeding_slot_refused_iff (crowdedRiser 16) [] "riser" 16 rfl rfl
    List.not_mem_nil exceeds
  refine ⟨rfl, rfl, List.not_mem_nil, exceeds, refused.1.mpr (by decide), ?_⟩
  refine (refused.2.1 _ _).mpr ⟨by decide, ?_, rfl⟩
  rw [crowdedRiser_below]
  decide

/-- A slot of the greatest capacity keeps lanes that it does not have. -/
theorem crowdedRiser_greatest_kept :
    greatestCount.toNat < exactTotal (below (crowdedRiser greatestCount) [] "riser").lanes ∧
      (walk (crowdedRiser greatestCount) [] "riser").lanes = [greatestCount, 1] ∧
      (walk (crowdedRiser greatestCount) [] "riser").notices = [] := by
  have noDevice : (crowdedRiser greatestCount).maxLanes "riser" = none := rfl
  have slot : (crowdedRiser greatestCount).lanes "riser" = some greatestCount := rfl
  rw [walk_slot noDevice slot List.not_mem_nil, crowdedRiser_below]
  decide

end SlotLanes
