import SlotLanes.Files.Basic
import SlotLanes.Inventory.OfDocument
import SlotLanes.Inventory.OfValue

/-! An inventory from a file. -/
namespace SlotLanes.Inventory

inductive Fault where
  | unreadable (why : Files.Fault)
  | malformed (why : Json.Error)
  deriving DecidableEq, Repr

def Fault.cause : Fault → String
  | unreadable why => why.message
  | malformed why => why.message

def Fault.message (fault : Fault) : String :=
  match fault with
  | unreadable _ => "can't read inventory: " ++ fault.cause
  | malformed _ => "can't parse inventory: " ++ fault.cause

def load (files : Files) (path : String) : Except Fault Inventory := do
  let bytes ← (files.read path).mapError .unreadable
  (ofDocument bytes).mapError .malformed

def fromValue (value : Json.Value) : Except Fault Inventory :=
  (ofValue value).mapError fun why => .malformed ⟨.mismatch why, none⟩

end SlotLanes.Inventory
