import SlotLanes.Dictionary
import SlotLanes.Json.Reader

/-! The value of a whole document. An object keeps its members in the order of their
names, and of several with one name only the last. -/
namespace SlotLanes.Json

inductive Value where
  | scalar (value : Scalar)
  | array (items : List Value)
  | object (members : List (String × Value))
  deriving Repr

def Value.found : Value → Found
  | scalar value => value.found
  | array _ => .sequence
  | object _ => .map

mutual

def Node.value : Node → Except Fault Value
  | .scalar value _ => .ok (.scalar value)
  | .array _ items => do
    let values ← items.values
    return .array values
  | .object _ members => do
    let entries ← members.entries
    return .object (sortEntries entries)
  | .broken fault => .error fault

def Items.values : Items → Except Fault (List Value)
  | .close _ => .ok []
  | .item node more => do
    let value ← node.value
    let values ← more.values
    return value :: values
  | .broken fault => .error fault

def Members.entries : Members → Except Fault (List (String × Value))
  | .close _ => .ok []
  | .member key _ node more => do
    let value ← node.value
    let entries ← more.entries
    return (key, value) :: entries
  | .broken fault => .error fault

end

def Value.ofBytes (bytes : Bytes) : Except Error Value :=
  let node := readDocument bytes
  let read := do
    let value ← node.value
    checkEnd (← node.rest)
    return value
  read.mapError (·.locate bytes)

/-- What an object holds under a name; anything else holds nothing. -/
def Value.get? : Value → String → Option Value
  | object members, name => members.lookup name
  | _, _ => none

end SlotLanes.Json
