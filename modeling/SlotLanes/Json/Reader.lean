import SlotLanes.Json.Node
import SlotLanes.Json.Text

/-! Reading the bytes of a document into a node. Lists and objects may nest 127 deep. -/
namespace SlotLanes.Json

def isBlank (byte : UInt8) : Bool :=
  byte = ' '.toUInt8 || byte = '\t'.toUInt8 || byte = '\n'.toUInt8 || byte = '\r'.toUInt8

def skipBlanks (input : Bytes) : Bytes :=
  input.dropWhile isBlank

def readWord (value : Scalar) : List Char → Bytes → Node
  | [], input => .scalar value input
  | _ :: _, [] => .broken (.before .unfinishedValue [])
  | char :: chars, byte :: rest =>
    if Char.ofUInt8 byte = char then readWord value chars rest
    else .broken (.before .wrongWord rest)

def Node.ofRead (scalar : α → Scalar) : Except Fault (α × Bytes) → Node
  | .ok (value, rest) => .scalar (scalar value) rest
  | .error fault => .broken fault

def Items.cons (node : Node) (read : Bytes → Items) : Items :=
  .item node (match node.rest with | .ok rest => read rest | .error fault => .broken fault)

def readItemsWithin (node : Bytes → Node) : Nat → Bytes → Items
  | 0, _ => .broken (.before .unfinishedList [])
  | count + 1, input =>
    match skipBlanks input with
    | [] => .broken (.before .unfinishedList [])
    | byte :: rest =>
      if byte = ']'.toUInt8 then .close rest
      else if byte = ','.toUInt8 then
        match skipBlanks rest with
        | [] => .broken (.before .unfinishedValue [])
        | next :: more =>
          if next = ']'.toUInt8 then .broken (.before .trailingComma more)
          else .cons (node (next :: more)) (readItemsWithin node count)
      else .broken (.before .noListEnd rest)

def readItems (node : Bytes → Node) (input : Bytes) : Items :=
  match skipBlanks input with
  | [] => .broken (.before .unfinishedList [])
  | byte :: rest =>
    if byte = ']'.toUInt8 then .close rest
    else .cons (node (byte :: rest)) (readItemsWithin node input.length)

def readMemberValue (node : Bytes → Node) (input : Bytes) : Node :=
  match skipBlanks input with
  | [] => .broken (.before .unfinishedObject [])
  | byte :: rest =>
    if byte = ':'.toUInt8 then node rest else .broken (.before .noColon rest)

def Members.cons (node : Bytes → Node) (input : Bytes) (read : Bytes → Members) : Members :=
  match readText input with
  | .error fault => .broken fault
  | .ok (key, after) =>
    let value := readMemberValue node after
    .member key after value
      (match value.rest with | .ok rest => read rest | .error fault => .broken fault)

def readMembersWithin (node : Bytes → Node) : Nat → Bytes → Members
  | 0, _ => .broken (.before .unfinishedObject [])
  | count + 1, input =>
    match skipBlanks input with
    | [] => .broken (.before .unfinishedObject [])
    | byte :: rest =>
      if byte = '\x7d'.toUInt8 then .close rest
      else if byte = ','.toUInt8 then
        match skipBlanks rest with
        | [] => .broken (.before .unfinishedValue [])
        | next :: more =>
          if next = '"'.toUInt8 then .cons node more (readMembersWithin node count)
          else if next = '\x7d'.toUInt8 then .broken (.before .trailingComma more)
          else .broken (.before .keyNotString more)
      else .broken (.before .noObjectEnd rest)

def readMembers (node : Bytes → Node) (input : Bytes) : Members :=
  match skipBlanks input with
  | [] => .broken (.before .unfinishedObject [])
  | byte :: rest =>
    if byte = '\x7d'.toUInt8 then .close rest
    else if byte = '"'.toUInt8 then .cons node rest (readMembersWithin node input.length)
    else .broken (.before .keyNotString rest)

/-- A value; `nested?` reads what stands inside lists and objects, if they may nest
deeper. -/
def readValue (nested? : Option (Bytes → Node)) (input : Bytes) : Node :=
  match skipBlanks input with
  | [] => .broken (.before .unfinishedValue [])
  | byte :: rest =>
    match Char.ofUInt8 byte with
    | 'n' => readWord .null ['u', 'l', 'l'] rest
    | 't' => readWord (.boolean true) ['r', 'u', 'e'] rest
    | 'f' => readWord (.boolean false) ['a', 'l', 's', 'e'] rest
    | '"' => .ofRead .string (readText rest)
    | '[' =>
      match nested? with
      | none => .broken (.before .tooDeep rest)
      | some node => .array (byte :: rest) (readItems node rest)
    | '\x7b' =>
      match nested? with
      | none => .broken (.before .tooDeep rest)
      | some node => .object (byte :: rest) (readMembers node rest)
    | _ =>
      if byte = '-'.toUInt8 || isDigit byte then .ofRead .number (readNumber (byte :: rest))
      else .broken (.before .noValue rest)

def readNode : Nat → Bytes → Node
  | 0 => readValue none
  | depth + 1 => readValue (some (readNode depth))

def maxDepth : Nat := 127

def readDocument (bytes : Bytes) : Node :=
  readNode maxDepth bytes

def checkEnd (rest : Bytes) : Except Fault Unit :=
  match skipBlanks rest with
  | [] => .ok ()
  | _ :: more => .error (.before .trailingCharacters more)

end SlotLanes.Json
