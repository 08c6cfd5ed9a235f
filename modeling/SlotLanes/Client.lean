import SlotLanes.Inventory.Object

/-! What a walk may ask of an inventory. Paths are arbitrary strings and the graph may
be cyclic, but only finitely many paths are slots; a client lists them. -/
namespace SlotLanes

/-- The questions themselves, with no bound on the paths that are slots. -/
structure Accessors where
  bus : String → Option UInt8
  maxLanes : String → Option UInt64
  lanes : String → Option UInt64
  children : String → List String

structure Client extends Accessors where
  slots : List String
  mem_slots : ∀ path, maxLanes path = none → (lanes path).isSome → path ∈ slots

def Client.unvisited (client : Client) (active : List String) : List String :=
  client.slots.filter (· ∉ active)

theorem Client.length_unvisited_lt (client : Client) {active : List String} {path : String}
    (slot : path ∈ client.slots) (fresh : path ∉ active) :
    (client.unvisited (path :: active)).length < (client.unvisited active).length := by
  have fewer : client.unvisited (path :: active) = (client.unvisited active).filter (· ≠ path) := by
    simp only [Client.unvisited, List.filter_filter]
    congr 1
    funext other
    simp
  rw [fewer]
  have some_out : ∃ other ∈ client.unvisited active, ¬(decide (other ≠ path)) = true :=
    ⟨path, by simp [Client.unvisited, slot, fresh], by simp⟩
  exact List.length_filter_lt_length_iff_exists.mpr some_out

theorem mem_names_of_lookup {entries : List (String × α)} {name : String} {value : α}
    (found : entries.lookup name = some value) : name ∈ entries.map Prod.fst := by
  induction entries with
  | nil => simp at found
  | cons entry rest ih => grind

namespace Inventory

def busOf (inventory : Inventory) (path : String) : Option UInt8 := do
  let bus ← (← inventory.get? path).bus
  if bus < 256 then some bus.toUInt8 else none

def maxLanesOf (inventory : Inventory) (path : String) : Option UInt64 :=
  (inventory.get? path).bind Object.maxLanes

def lanesOf (inventory : Inventory) (path : String) : Option UInt64 :=
  (inventory.get? path).bind Object.lanes

def listedChildren (inventory : Inventory) (path : String) : List String :=
  match inventory.get? path with
  | none => []
  | some object => object.children

/-- The listed children that are devices or slots. -/
def childrenOf (inventory : Inventory) (path : String) : List String :=
  (inventory.listedChildren path).filter fun child =>
    (inventory.get? child).any Object.isDeviceOrSlot

theorem listedChildren_congr {inventory other : Inventory} {path : String}
    (same : inventory.get? path = other.get? path) :
    inventory.listedChildren path = other.listedChildren path := by
  rw [listedChildren, listedChildren, same]

theorem childrenOf_congr {inventory other : Inventory} {path : String}
    (same : inventory.get? path = other.get? path)
    (kept : ∀ child ∈ inventory.listedChildren path, (inventory.get? child).any Object.isDeviceOrSlot =
      (other.get? child).any Object.isDeviceOrSlot) :
    inventory.childrenOf path = other.childrenOf path := by
  rw [childrenOf, childrenOf, ← listedChildren_congr same]
  exact List.filter_congr kept

def paths (inventory : Inventory) : List String :=
  inventory.entries.map Prod.fst

theorem mem_paths_of_lanesOf {inventory : Inventory} {path : String}
    (found : (inventory.lanesOf path).isSome) : path ∈ inventory.paths := by
  cases object : inventory.get? path with
  | none => simp [lanesOf, object] at found
  | some _ => exact mem_names_of_lookup object

/-- The inventory as a client that reports all listed children. -/
def listing (inventory : Inventory) : Client where
  bus := inventory.busOf
  maxLanes := inventory.maxLanesOf
  lanes := inventory.lanesOf
  children := inventory.listedChildren
  slots := inventory.paths
  mem_slots _ _ found := mem_paths_of_lanesOf found

def client (inventory : Inventory) : Client :=
  { inventory.listing with children := inventory.childrenOf }

end Inventory
end SlotLanes
