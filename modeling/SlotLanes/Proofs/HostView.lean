import SlotLanes.Proofs.Capacity
import SlotLanes.Proofs.Exchange
import SlotLanes.Proofs.Richest

/-! What the host sees of an inventory. A reply that lists lanes is the split of one child
of the main board on the bus that was asked about: the whole of a device, or no more than a
slot has and all of it where that is a byte. The list is never cut to fit a reply. -/
namespace SlotLanes

/-- The bytes are a device's own lanes, or lanes that a slot has. -/
def Accessors.Splits (accessors : Accessors) (path : String) (bytes : List UInt8) : Prop :=
  (∃ most, accessors.maxLanes path = some most ∧ bytes.map UInt8.toNat = [min most.toNat 255]) ∨
    ∃ capacity, accessors.maxLanes path = none ∧ accessors.lanes path = some capacity ∧
      (capacity < greatestCount → byteTotal bytes ≤ capacity.toNat) ∧
      (capacity.toNat ≤ 255 → byteTotal bytes = capacity.toNat)

variable {client : Client} {active : List String} {path : String}

theorem splits_of_slot {capacity : UInt64} (noDevice : client.maxLanes path = none)
    (slot : client.lanes path = some capacity) (present : (walk client active path).lanes ≠ []) :
    client.Splits path (walk client active path).bytes := by
  have exactly (roomy : capacity < greatestCount) :
      exactTotal (walk client active path).lanes = capacity.toNat :=
    (walk_conserves active noDevice slot roomy).resolve_left present
  refine .inr ⟨capacity, noDevice, slot, fun roomy => ?_, fun small => ?_⟩
  · rw [← exactly roomy]
    exact byteTotal_narrow_le _
  · have total := exactly (lt_greatestCount_of_le small)
    rw [← total]
    exact byteTotal_narrow_of_le (total.trans_le small)

theorem splits_of_walk (present : (walk client active path).lanes ≠ []) :
    client.Splits path (walk client active path).bytes := by
  cases noDevice : client.maxLanes path with
  | some most =>
    refine .inl ⟨most, noDevice, ?_⟩
    simp [walk_device noDevice, Visit.bytes, narrow_toNat]
  | none =>
    cases lanes : client.lanes path with
    | none => simp [walk_neither noDevice lanes] at present
    | some capacity => exact splits_of_slot noDevice lanes present

theorem Richest.mem {lists : List (List UInt64)} {best : List UInt64}
    (richest : Richest lists best) (present : best ≠ []) : best ∈ lists := by
  rcases richest with ⟨nothing, _⟩ | ⟨before, after, rfl, _⟩
  · exact absurd nothing present
  · simp

theorem exists_richest_child {mainBoard : String} {bus : UInt8}
    (present : (select client mainBoard bus).lanes ≠ []) :
    ∃ child ∈ client.children mainBoard, client.bus child = some bus ∧
      (walk client [mainBoard] child).lanes = (select client mainBoard bus).lanes := by
  have richest := (considered_foldl client mainBoard bus (client.children mainBoard)).richest
  obtain ⟨child, candidate, same⟩ := List.mem_map.mp (richest.mem present)
  obtain ⟨member, sameBus⟩ := mem_onBus.mp candidate
  exact ⟨child, member, sameBus, same⟩

/-- The host gets the answer for the bus that it names, whole and with its length, unless
the answer is too long to reply. If the answer lists any lanes, they are the split of a
child of the main board on that bus. -/
theorem host_sees_split_of_child (inventory : Inventory) (mainBoard : String) (files : Files)
    (index : UInt8) (rest : List UInt8) :
    let handler := Handler.graph inventory.client mainBoard
    let outcome := Request.process (handler.lanes files) 0x0e (index :: rest)
    ∃ lanes, (handler.lanes? files index).value = some lanes ∧
      (outcome.value = .error .requestLengthExceeded ↔ 61 < lanes.length) ∧
      (lanes.length ≤ 61 → ∃ count : UInt8, count.toNat = lanes.length ∧
        outcome.value = .ok (0x0e :: count :: lanes)) ∧
      (lanes ≠ [] → ∃ child ∈ inventory.client.children mainBoard,
        inventory.client.bus child = some index ∧ inventory.client.Splits child lanes) := by
  intro handler outcome
  have ends : Request.Ends (handler.lanes files) 0x0e (index :: rest) outcome :=
    Request.process_ends _ _ _
  have answer : (handler.lanes files index).value =
      (select inventory.client mainBoard index).bytes := rfl
  refine ⟨(select inventory.client mainBoard index).bytes, rfl, ?_, fun fits => ?_, fun listed => ?_⟩
  · rw [ends.error_iff, ← answer]
    constructor
    · rintro (⟨other, _⟩ | ⟨_, nothing, _⟩ | ⟨_, _, _, ⟨⟩, long, _⟩)
      · exact absurd rfl other
      · cases nothing
      · exact long
    · intro long
      exact .inr (.inr ⟨index, rest, rfl, rfl, long, rfl⟩)
  · obtain ⟨count, counted, _⟩ := Ipmi.encodeBifurcationReply_of_le fits
    exact ⟨count, counted, (ends.ok_iff _).mpr ⟨index, rest, count, rfl, rfl, fits, counted, rfl⟩⟩
  · have present : (select inventory.client mainBoard index).lanes ≠ [] := by
      simpa [Visit.bytes] using listed
    obtain ⟨child, member, sameBus, same⟩ := exists_richest_child present
    refine ⟨child, member, sameBus, ?_⟩
    rw [Visit.bytes, ← same]
    exact splits_of_walk (same ▸ present)

end SlotLanes
