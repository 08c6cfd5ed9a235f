import SlotLanes.Json.Number
import SlotLanes.Text.Quoted

/-! A document as it is read from left to right. A node knows which bytes follow it,
and where the reading stopped for a fault the fault takes the node's place, so that one
can take values out of a document that is broken further on. -/
namespace SlotLanes.Json

inductive Scalar where
  | null
  | boolean (value : Bool)
  | number (value : Number)
  | string (value : String)
  deriving Repr

def Scalar.found : Scalar → Found
  | null => .null
  | boolean value => .boolean value
  | number value => value.found
  | string value => .text (Text.quoted value)

mutual

inductive Node where
  | scalar (value : Scalar) (rest : Bytes)
  | array (start : Bytes) (items : Items)
  | object (start : Bytes) (members : Members)
  | broken (fault : Fault)
  deriving Repr

/-- The rest of a list from some item on. -/
inductive Items where
  | close (rest : Bytes)
  | item (value : Node) (more : Items)
  | broken (fault : Fault)
  deriving Repr

/-- The rest of an object from some member on; `after` follows the member's key. -/
inductive Members where
  | close (rest : Bytes)
  | member (key : String) (after : Bytes) (value : Node) (more : Members)
  | broken (fault : Fault)
  deriving Repr

end

def Items.rest : Items → Except Fault Bytes
  | close rest => .ok rest
  | item _ more => more.rest
  | broken fault => .error fault

def Members.rest : Members → Except Fault Bytes
  | close rest => .ok rest
  | member _ _ _ more => more.rest
  | broken fault => .error fault

def Node.rest : Node → Except Fault Bytes
  | scalar _ rest => .ok rest
  | array _ items => items.rest
  | object _ members => members.rest
  | broken fault => .error fault

/-- What a node turns out to be, and the bytes not counted when that is clear: a scalar
has been read, of a list or object only what stands before it. -/
def Node.found : Node → Except Fault (Found × Bytes)
  | scalar value rest => .ok (value.found, rest)
  | array start _ => .ok (.sequence, start)
  | object start _ => .ok (.map, start)
  | broken fault => .error fault

end SlotLanes.Json
