import SlotLanes.Inventory.Object

/-! An inventory from a value. The members of an object are visited in the order of
their names, so that order decides which of several mismatches is reported. -/
namespace SlotLanes.Inventory
open SlotLanes.Json (Value)

def countOfValue : Value → Except Mismatch (Option UInt64)
  | .scalar scalar => countOfScalar scalar
  | value => .error (.wrongKind value.found "u64")

def stringOfValue : Value → Except Mismatch String
  | .scalar scalar => stringOfScalar scalar
  | value => .error (.wrongKind value.found "a string")

def pathsOfValue : Value → Except Mismatch (List String)
  | .array items => items.mapM stringOfValue
  | value => .error (.wrongKind value.found "a sequence")

def valueReader : FieldReader Value Mismatch := ⟨countOfValue, pathsOfValue⟩

def checkLength (most : Nat) (items : List Value) : Except Mismatch Unit :=
  if items.length ≤ most then .ok ()
  else .error (.wrongLength items.length "fewer elements in array")

def Object.readMember (object : Object) (member : String × Value) : Except Mismatch Object :=
  match Field.ofName? member.1 with
  | none => .error (.unknownField member.1 Field.names)
  | some field => object.readField valueReader field member.2

/-- An object by its named fields, or by their values in the order of the fields. -/
def Object.ofValue : Value → Except Mismatch Object
  | .object members => members.foldlM Object.readMember {}
  | .array items => do
    let object ← (Field.all.zip items).foldlM
      (fun object (field, value) => object.readField valueReader field value) {}
    checkLength Field.all.length items
    return object
  | value => .error (.wrongKind value.found "struct InventoryObject")

def objectsOfValue : Value → Except Mismatch Inventory
  | .object members => do
    let entries ← members.mapM fun (path, value) => do return (path, ← Object.ofValue value)
    return .ofList entries
  | value => .error (.wrongKind value.found "a map")

def readMember (_read : Option Inventory) (member : String × Value) :
    Except Mismatch (Option Inventory) :=
  if member.1 = "objects" then do return some (← objectsOfValue member.2)
  else .error (.unknownField member.1 ["objects"])

def ofValue : Value → Except Mismatch Inventory
  | .object members => do
    match ← members.foldlM readMember none with
    | some inventory => return inventory
    | none => throw (.missingField "objects")
  | .array [] => .error (.wrongLength 0 "struct JsonInventory with 1 element")
  | .array (value :: more) => do
    let inventory ← objectsOfValue value
    checkLength 1 (value :: more)
    return inventory
  | value => .error (.wrongKind value.found "struct JsonInventory")

end SlotLanes.Inventory
