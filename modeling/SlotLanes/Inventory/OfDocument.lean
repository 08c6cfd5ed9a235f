import SlotLanes.Inventory.Object

/-! An inventory straight from the bytes of a document, in one pass: a field of the
wrong kind is reported although the document is broken further on, and a field given
twice is refused. -/
namespace SlotLanes.Inventory
open SlotLanes.Json

def refuse (node : Node) (expected : String) : Except Fault α := do
  let (found, ahead) ← node.found
  throw ⟨.mismatch (.wrongKind found expected), ahead.length⟩

def misfit (ahead : Bytes) (why : Mismatch) : Fault :=
  ⟨.mismatch why, ahead.length⟩

/-- A mismatch of a field's name: blanks after it count, and so does a brace that
closes the object there. -/
def misnamed (after : Bytes) (why : Mismatch) : Fault :=
  match skipBlanks after with
  | byte :: rest => if byte = '\x7d'.toUInt8 then misfit rest why else misfit (byte :: rest) why
  | [] => misfit [] why

def countOfNode : Node → Except Fault (Option UInt64)
  | .scalar scalar rest => (countOfScalar scalar).mapError (misfit rest)
  | node => refuse node "u64"

def stringOfNode : Node → Except Fault String
  | .scalar scalar rest => (stringOfScalar scalar).mapError (misfit rest)
  | node => refuse node "a string"

def stringsOfItems : Items → Except Fault (List String)
  | .close _ => .ok []
  | .item node more => do
    let text ← stringOfNode node
    let texts ← stringsOfItems more
    return text :: texts
  | .broken fault => .error fault

def pathsOfNode : Node → Except Fault (List String)
  | .array _ items => stringsOfItems items
  | node => refuse node "a sequence"

def nodeReader : FieldReader Node Fault := ⟨countOfNode, pathsOfNode⟩

def closeList (ahead : Bytes) : Except Fault Unit :=
  match skipBlanks ahead with
  | [] => .error (.before .unfinishedList [])
  | byte :: rest =>
    if byte = ']'.toUInt8 then .ok ()
    else if byte = ','.toUInt8 then
      match skipBlanks rest with
      | [] => .error (.before .trailingCharacters [])
      | next :: more =>
        .error (.before (if next = ']'.toUInt8 then .trailingComma else .trailingCharacters) more)
    else .error (.before .trailingCharacters rest)

def Object.readMembers (seen : List Field) (object : Object) : Members → Except Fault Object
  | .close _ => .ok object
  | .broken fault => .error fault
  | .member key after node more =>
    match Field.ofName? key with
    | none => .error (misnamed after (.unknownField key Field.names))
    | some field =>
      if field ∈ seen then .error (misnamed after (.duplicateField key))
      else do
        let object ← object.readField nodeReader field node
        object.readMembers (field :: seen) more

/-- Reads the given fields in their order; `ahead` follows what was read before. -/
def Object.readItems : List Field → Object → Bytes → Items → Except Fault Object
  | [], object, ahead, _ => do
    closeList ahead
    return object
  | _ :: _, object, _, .close _ => .ok object
  | _ :: _, _, _, .broken fault => .error fault
  | field :: fields, object, _, .item node more => do
    let object ← object.readField nodeReader field node
    readItems fields object (← node.rest) more

def Object.ofNode : Node → Except Fault Object
  | .object _ members => Object.readMembers [] {} members
  | .array _ items => Object.readItems Field.all {} [] items
  | node => refuse node "struct InventoryObject"

def objectsOfMembers (inventory : Inventory) : Members → Except Fault Inventory
  | .close _ => .ok inventory
  | .broken fault => .error fault
  | .member path _ node more => do
    let object ← Object.ofNode node
    objectsOfMembers (inventory.insert path object) more

def objectsOfNode : Node → Except Fault Inventory
  | .object _ members => objectsOfMembers .empty members
  | node => refuse node "a map"

def ofMembers (read : Option Inventory) : Members → Except Fault Inventory
  | .close rest =>
    match read with
    | some inventory => .ok inventory
    | none => .error (misfit rest (.missingField "objects"))
  | .broken fault => .error fault
  | .member key after node more =>
    if key ≠ "objects" then .error (misnamed after (.unknownField key ["objects"]))
    else if read.isSome then .error (misnamed after (.duplicateField key))
    else do
      let inventory ← objectsOfNode node
      ofMembers (some inventory) more

def ofNode : Node → Except Fault Inventory
  | .object _ members => ofMembers none members
  | .array _ (.close rest) =>
    .error (misfit rest (.wrongLength 0 "struct JsonInventory with 1 element"))
  | .array _ (.broken fault) => .error fault
  | .array _ (.item node _) => do
    let inventory ← objectsOfNode node
    closeList (← node.rest)
    return inventory
  | node => refuse node "struct JsonInventory"

def ofDocument (bytes : Bytes) : Except Error Inventory :=
  let node := readDocument bytes
  let read := do
    let inventory ← ofNode node
    checkEnd (← node.rest)
    return inventory
  read.mapError (·.locate bytes)

end SlotLanes.Inventory
