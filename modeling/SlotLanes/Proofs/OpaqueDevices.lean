import SlotLanes.Proofs.Questions

/-! Devices from outside. Whatever a device is listed with beside its own lanes, lanes of a slot
or children, it answers for itself and nothing is asked below it; so inventories that differ
only there cannot be told apart, not even by what is asked of them. -/
namespace SlotLanes

namespace Inventory

/-- The same objects at the same paths, but for the lanes and the children that devices are
listed with. -/
def SameButInDevices (inventory other : Inventory) : Prop :=
  ∀ path, inventory.get? path = other.get? path ∨
    ∃ (device : Object) (lanes : Option UInt64) (children : List String),
      device.maxLanes.isSome ∧ inventory.get? path = some device ∧
        other.get? path = some { device with lanes := lanes, children := children }

namespace SameButInDevices

variable {inventory other : Inventory} (same : inventory.SameButInDevices other) (path : String)
include same

theorem busOf_eq : inventory.busOf path = other.busOf path := by
  rcases same path with equal | ⟨device, lanes, children, _, found, hidden⟩
  · rw [busOf, busOf, equal]
  · rw [busOf, busOf, found, hidden]
    rfl

theorem maxLanesOf_eq : inventory.maxLanesOf path = other.maxLanesOf path := by
  rcases same path with equal | ⟨device, lanes, children, _, found, hidden⟩
  · rw [maxLanesOf, maxLanesOf, equal]
  · rw [maxLanesOf, maxLanesOf, found, hidden]
    rfl

/-- A device stays a device, so it is kept among the children of its parent. -/
theorem isDeviceOrSlot_eq : (inventory.get? path).any Object.isDeviceOrSlot =
    (other.get? path).any Object.isDeviceOrSlot := by
  rcases same path with equal | ⟨device, lanes, children, isDevice, found, hidden⟩
  · rw [equal]
  · rw [found, hidden]
    simp [Object.isDeviceOrSlot, isDevice]

variable {path}

theorem get?_eq (noDevice : inventory.maxLanesOf path = none) :
    inventory.get? path = other.get? path := by
  rcases same path with equal | ⟨device, lanes, children, isDevice, found, hidden⟩
  · exact equal
  · have none : device.maxLanes = none := by simpa [maxLanesOf, found] using noDevice
    simp [none] at isDevice

theorem childrenOf_eq (equal : inventory.get? path = other.get? path) :
    inventory.childrenOf path = other.childrenOf path :=
  childrenOf_congr equal fun child _ => same.isDeviceOrSlot_eq child

theorem alike_of_mayAsk {call : Call} (mayAsk : inventory.client.MayAsk call) :
    call.Alike inventory.client.toAccessors other.client.toAccessors := by
  cases call with
  | bus path => exact mayAsk.elim
  | maxLanes path => exact same.maxLanesOf_eq path
  | lanes path =>
    have equal := same.get?_eq mayAsk
    exact congrArg (·.bind Object.lanes) equal
  | children path =>
    have equal := same.get?_eq mayAsk.1
    exact same.childrenOf_eq equal

end SameButInDevices
end Inventory

/-- What a device hides shows nowhere: every path brings the same lanes, the same warnings and
the same calls, and so does every bus, for any main board that is itself the same. -/
theorem device_insides_immaterial {inventory other : Inventory}
    (same : inventory.SameButInDevices other) :
    (∀ path, parseDevices inventory.client path = parseDevices other.client path) ∧
    ∀ mainBoard, inventory.get? mainBoard = other.get? mainBoard → ∀ bus,
      select inventory.client mainBoard bus = select other.client mainBoard bus := by
  refine ⟨fun path => ?_, fun mainBoard equal bus => ?_⟩
  · apply walk_congr_calls
    intro call made
    exact same.alike_of_mayAsk (walk_asks made).2
  · apply select_congr_calls
    intro call made
    rcases mem_calls_select.mp made with first | ⟨child, _, asked | ⟨_, inside⟩⟩
    · rw [first]
      exact same.childrenOf_eq equal
    · rw [asked]
      exact same.busOf_eq child
    · exact same.alike_of_mayAsk (walk_asks inside).2

/-- A slot with a card that hides lanes and children of its own. -/
def hidingCard (lanes : Option UInt64) (children : List String) : Inventory :=
  .ofList [("/board", { children := ["/slot"] }),
    ("/slot", { bus := some 1, lanes := some 16, children := ["/card", "/riser"] }),
    ("/riser", { lanes := some 4, children := ["/card"] }),
    ("/card", { maxLanes := some 8, lanes := lanes, children := children })]

theorem hidingCard_sameButInDevices (lanes other : Option UInt64) (children others : List String) :
    (hidingCard lanes children).SameButInDevices (hidingCard other others) := by
  intro path
  simp only [hidingCard, Dictionary.ofList, List.foldl_cons, List.foldl_nil,
    Dictionary.get?_insert, Dictionary.get?_empty]
  split
  · exact .inr ⟨_, other, others, rfl, rfl, rfl⟩
  · exact .inl rfl

/-- A card that leads back to its slot is walked as one with nothing below it. -/
theorem hidingCard_loop_hidden :
    let plain := hidingCard none []
    let looped := hidingCard (some 2) ["/slot", "/card"]
    plain.SameButInDevices looped ∧ plain.get? "/board" = looped.get? "/board" ∧
      parseDevices plain.client "/slot" = parseDevices looped.client "/slot" ∧
      select plain.client "/board" 1 = select looped.client "/board" 1 := by
  have same := hidingCard_sameButInDevices none (some 2) [] ["/slot", "/card"]
  have immaterial := device_insides_immaterial same
  have board : (hidingCard none []).get? "/board" =
      (hidingCard (some 2) ["/slot", "/card"]).get? "/board" := by
    simp [hidingCard, Dictionary.ofList]
  exact ⟨same, board, immaterial.1 "/slot", immaterial.2 "/board" board 1⟩

end SlotLanes
