import Mathlib
import SlotLanes.Walk

/-! Lanes are conserved: what a slot resolves to is nothing or has exactly the slot's
capacity, whatever hangs below it. Sums are saturated at sixty-four bits; below the
greatest count that is never visible. Narrowing to bytes can only lose lanes. -/
namespace SlotLanes

def exactTotal (lanes : List UInt64) : Nat :=
  (lanes.map UInt64.toNat).sum

def byteTotal (bytes : List UInt8) : Nat :=
  (bytes.map UInt8.toNat).sum

theorem toNat_le_greatestCount (count : UInt64) : count.toNat ≤ greatestCount.toNat :=
  Nat.le_pred_of_lt (UInt64.toNat_lt count)

theorem lt_greatestCount_of_le {capacity : UInt64} (small : capacity.toNat ≤ 255) :
    capacity < greatestCount := by
  have greatest : greatestCount.toNat = 0xffffffffffffffff := rfl
  rw [UInt64.lt_iff_toNat_lt]
  omega

theorem addCounts_toNat (sum count : UInt64) :
    (addCounts sum count).toNat = min (sum.toNat + count.toNat) greatestCount.toNat := by
  have sumBound := UInt64.toNat_lt sum
  have countBound := UInt64.toNat_lt count
  have greatest : greatestCount.toNat = 0xffffffffffffffff := rfl
  have room : (greatestCount - sum).toNat = 0xffffffffffffffff - sum.toNat := by
    rw [UInt64.toNat_sub_of_le _ _ (by rw [UInt64.le_iff_toNat_le, greatest]; omega), greatest]
  unfold addCounts
  split
  next full =>
    rw [UInt64.lt_iff_toNat_lt, room] at full
    omega
  next fits =>
    rw [UInt64.lt_iff_toNat_lt, room] at fits
    rw [UInt64.toNat_add]
    omega

private theorem foldl_addCounts_toNat (lanes : List UInt64) (start : UInt64) :
    (lanes.foldl addCounts start).toNat =
      min (start.toNat + exactTotal lanes) greatestCount.toNat := by
  induction lanes generalizing start with
  | nil =>
    have atMost := toNat_le_greatestCount start
    simp only [List.foldl_nil, exactTotal, List.map_nil, List.sum_nil]
    omega
  | cons count rest ih =>
    rw [List.foldl_cons, ih, addCounts_toNat]
    simp only [exactTotal, List.map_cons, List.sum_cons]
    omega

theorem totalLanes_toNat (lanes : List UInt64) :
    (totalLanes lanes).toNat = min (exactTotal lanes) greatestCount.toNat := by
  rw [totalLanes, foldl_addCounts_toNat]
  simp

/-- Held against a saturated sum, a capacity is held against the true one, but for the
greatest capacity of all. -/
theorem lt_totalLanes_iff {capacity : UInt64} {lanes : List UInt64} :
    capacity < totalLanes lanes ↔ capacity < greatestCount ∧ capacity.toNat < exactTotal lanes := by
  rw [UInt64.lt_iff_toNat_lt, UInt64.lt_iff_toNat_lt, totalLanes_toNat]
  omega

theorem settle_exceeding {path : String} {capacity : UInt64} {below : Visit}
    (roomy : capacity < greatestCount) (exceeds : capacity.toNat < exactTotal below.lanes) :
    (settle path capacity below).lanes = [] := by
  have more := lt_totalLanes_iff.mpr ⟨roomy, exceeds⟩
  simp [settle, more]

/-- What fits keeps its lanes; what is left of the capacity follows as one more entry. -/
theorem settle_within {path : String} {capacity : UInt64} {below : Visit}
    (within : exactTotal below.lanes ≤ capacity.toNat) :
    (settle path capacity below).lanes.map UInt64.toNat =
      below.lanes.map UInt64.toNat ++
        (if exactTotal below.lanes < capacity.toNat then
          [capacity.toNat - exactTotal below.lanes] else []) := by
  have atMost := toNat_le_greatestCount capacity
  have total : (totalLanes below.lanes).toNat = exactTotal below.lanes := by
    rw [totalLanes_toNat]
    omega
  have notOver : ¬ capacity < totalLanes below.lanes := by
    rw [lt_totalLanes_iff]
    omega
  have leftover : totalLanes below.lanes < capacity ↔ exactTotal below.lanes < capacity.toNat := by
    rw [UInt64.lt_iff_toNat_lt, total]
  simp only [settle, notOver, if_false]
  split
  next less =>
    rw [if_pos (leftover.mp less)]
    have difference := UInt64.toNat_sub_of_le _ _ (UInt64.le_of_lt less)
    simp [difference, total]
  next equal =>
    rw [if_neg (fun less => equal (leftover.mpr less))]
    simp

theorem settle_conserves (path : String) {capacity : UInt64} (below : Visit)
    (roomy : capacity < greatestCount) :
    (settle path capacity below).lanes = [] ∨
      exactTotal (settle path capacity below).lanes = capacity.toNat := by
  by_cases within : exactTotal below.lanes ≤ capacity.toNat
  · right
    rw [exactTotal, settle_within within, List.sum_append, ← exactTotal]
    split
    · simp only [List.sum_singleton]; omega
    · simp only [List.sum_nil]; omega
  · exact .inl (settle_exceeding roomy (by omega))

theorem walk_conserves {client : Client} (active : List String) {path : String} {capacity : UInt64}
    (noDevice : client.maxLanes path = none) (slot : client.lanes path = some capacity)
    (roomy : capacity < greatestCount) :
    (walk client active path).lanes = [] ∨
      exactTotal (walk client active path).lanes = capacity.toNat := by
  by_cases seen : path ∈ active
  · rw [walk_repeat noDevice slot seen]
    exact .inl rfl
  · rw [walk_slot noDevice slot seen]
    exact settle_conserves path _ roomy

theorem narrow_toNat (lanes : UInt64) : (narrow lanes).toNat = min lanes.toNat 255 := by
  rw [narrow, UInt8.toNat_ofNat']
  omega

theorem byteTotal_narrow_le (lanes : List UInt64) :
    byteTotal (lanes.map narrow) ≤ exactTotal lanes := by
  induction lanes with
  | nil => exact Nat.le_refl 0
  | cons count rest ih =>
    simp only [byteTotal, exactTotal, List.map_cons, List.sum_cons, narrow_toNat] at ih ⊢
    omega

theorem byteTotal_narrow_of_le {lanes : List UInt64} (small : exactTotal lanes ≤ 255) :
    byteTotal (lanes.map narrow) = exactTotal lanes := by
  induction lanes with
  | nil => rfl
  | cons count rest ih =>
    simp only [byteTotal, exactTotal, List.map_cons, List.sum_cons, narrow_toNat] at ih small ⊢
    rw [ih (by omega)]
    omega

/-- A slot resolves to nothing or to exactly its capacity, on every branch and whatever
cycles, risers over their capacity or wide devices lie below it. As bytes its lanes never
exceed the capacity, and a capacity that is a byte is kept exactly. -/
theorem slot_resolves_to_capacity (client : Client) (active : List String) (path : String)
    (capacity : UInt64) (noDevice : client.maxLanes path = none)
    (slot : client.lanes path = some capacity) (roomy : capacity < greatestCount) :
    ((walk client active path).lanes = [] ∨
        exactTotal (walk client active path).lanes = capacity.toNat) ∧
      byteTotal (parseDevices client path).bytes ≤ capacity.toNat ∧
      (capacity.toNat ≤ 255 → (parseDevices client path).bytes = [] ∨
        byteTotal (parseDevices client path).bytes = capacity.toNat) := by
  refine ⟨walk_conserves active noDevice slot roomy, ?_⟩
  simp only [parseDevices, Visit.bytes]
  rcases walk_conserves [] noDevice slot roomy with nothing | exactly
  · rw [nothing]
    exact ⟨Nat.zero_le _, fun _ => .inl rfl⟩
  · refine ⟨exactly ▸ byteTotal_narrow_le _, fun small => .inr ?_⟩
    rw [byteTotal_narrow_of_le (by omega), exactly]

def slotLoop : Client where
  bus _ := none
  maxLanes path := if path = "nic" then some 2 else none
  lanes path := if path = "riser" then some 16 else if path = "carrier" then some 8 else none
  children path :=
    if path = "riser" then ["carrier"] else if path = "carrier" then ["riser", "nic"] else []
  slots := ["riser", "carrier"]
  mem_slots path _ slot := by
    split at slot
    · simp_all
    · split at slot <;> simp_all

theorem slotLoop_resolves_to_capacity :
    slotLoop.maxLanes "riser" = none ∧ slotLoop.lanes "riser" = some 16 ∧ 16 < greatestCount ∧
      ((walk slotLoop [] "riser").lanes = [] ∨ exactTotal (walk slotLoop [] "riser").lanes = 16) ∧
      byteTotal (parseDevices slotLoop "riser").bytes ≤ 16 ∧
      ((parseDevices slotLoop "riser").bytes = [] ∨
        byteTotal (parseDevices slotLoop "riser").bytes = 16) := by
  have conserved := slot_resolves_to_capacity slotLoop [] "riser" 16 rfl rfl (by decide)
  exact ⟨rfl, rfl, by decide, conserved.1, conserved.2.1, conserved.2.2 (by decide)⟩

end SlotLanes
