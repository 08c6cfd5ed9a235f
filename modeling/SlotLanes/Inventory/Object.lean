import SlotLanes.Json.Value

/-! Objects of the platform inventory and the fields they are written with. A device
declares the most lanes it can use, a slot the lanes it provides; other objects only
hold children. -/
namespace SlotLanes.Inventory

structure Object where
  bus : Option UInt64 := none
  maxLanes : Option UInt64 := none
  lanes : Option UInt64 := none
  children : List String := []
  deriving DecidableEq, Repr, Inhabited

def Object.isDeviceOrSlot (object : Object) : Bool :=
  object.maxLanes.isSome || object.lanes.isSome

inductive Field where
  | bus
  | maxLanes
  | lanes
  | children
  deriving DecidableEq, Repr

namespace Field

def all : List Field := [bus, maxLanes, lanes, children]

def name : Field → String
  | bus => "bus"
  | maxLanes => "max-lanes"
  | lanes => "lanes"
  | children => "children"

def names : List String := all.map name

def ofName? (name : String) : Option Field :=
  all.find? (·.name == name)

end Field

/-- How the fields of an object are read from values of some kind. -/
structure FieldReader (ν ε : Type) where
  count : ν → Except ε (Option UInt64)
  paths : ν → Except ε (List String)

def Object.readField (reader : FieldReader ν ε) (object : Object) (field : Field) (value : ν) :
    Except ε Object :=
  match field with
  | .bus => do return { object with bus := ← reader.count value }
  | .maxLanes => do return { object with maxLanes := ← reader.count value }
  | .lanes => do return { object with lanes := ← reader.count value }
  | .children => do return { object with children := ← reader.paths value }

def countOfScalar : Json.Scalar → Except Mismatch (Option UInt64)
  | .null => .ok none
  | .number (.natural n) => .ok (some n)
  | .number (.negative n) => .error (.outOfRange (.integer n.toInt) "u64")
  | scalar => .error (.wrongKind scalar.found "u64")

def stringOfScalar : Json.Scalar → Except Mismatch String
  | .string text => .ok text
  | scalar => .error (.wrongKind scalar.found "a string")

end SlotLanes.Inventory

namespace SlotLanes

abbrev Inventory := Dictionary Inventory.Object

end SlotLanes
