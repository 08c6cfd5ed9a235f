import SlotLanes.Config.Load
import SlotLanes.Inventory.Load
import SlotLanes.Selection

/-! What answers the question for a slot's lanes. A table is read anew for each
question; an inventory is read once, when the handler is made. -/
namespace SlotLanes

inductive Handler where
  | table (path : String)
  | graph (client : Client) (mainBoard : String)
  | fixed (lanes : Option (List UInt8))

/-- The lanes that a table gives a slot; a fault is only logged. -/
def Table.lanesOf (files : Files) (path name : String) : Logged (Option (List UInt8)) :=
  match lookup files path name with
  | .ok lanes => ⟨some lanes, []⟩
  | .error fault => ⟨none, [.tableFault path name fault]⟩

namespace Handler

def lanes? (files : Files) (handler : Handler) (index : UInt8) : Logged (Option (List UInt8)) :=
  match handler with
  | table path => Table.lanesOf files path (Table.slotName index)
  | graph client mainBoard =>
    let visit := select client mainBoard index
    ⟨some visit.bytes, visit.notices.map .walk⟩
  | fixed lanes => ⟨lanes, []⟩

def lanes (files : Files) (handler : Handler) (index : UInt8) : Logged (List UInt8) :=
  (handler.lanes? files index).map (·.getD [])

structure Fault where
  path : String
  why : Inventory.Fault
  deriving DecidableEq, Repr

def Fault.failure (fault : Fault) : Failure :=
  ⟨"can't load inventory " ++ fault.path, [fault.why.message, fault.why.cause]⟩

def ofInventory (files : Files) (path mainBoard : String) : Except Inventory.Fault Handler := do
  return .graph (← Inventory.load files path).client mainBoard

def ofConfig (files : Files) (config : Config) : Logged (Except Fault Handler) :=
  match config.source with
  | .table path => ⟨.ok (.table path), [.staticSource path]⟩
  | .inventory path mainBoard =>
    ⟨(ofInventory files path mainBoard).mapError (Fault.mk path), [.dynamicSource mainBoard path]⟩

end Handler
end SlotLanes
