import SlotLanes.Ipmi.Command
import SlotLanes.Ipmi.Completion

/-! The bytes on the wire. A reply is its command's byte and a payload; the payload
of a bifurcation reply is the number of lane counts and then the counts. A longer
list than the transport's buffer takes is refused, never cut. -/
namespace SlotLanes.Ipmi

/-- Longest reply the transport takes, the command's byte included. -/
def bufferSize : Nat := 64

/-- Most lane counts that one reply carries: the buffer less the command's byte,
the length byte and one byte that stays free. -/
def maxLaneCounts : Nat := bufferSize - 3

def encodeReply (command : Command) (payload : List UInt8) : List UInt8 :=
  command.byte :: payload

/-- The slot index that a bifurcation request asks about; bytes after it are ignored. -/
def decodeBifurcationRequest : List UInt8 → Except Completion UInt8
  | [] => .error .requestLengthInvalid
  | index :: _ => .ok index

def encodeBifurcationReply (lanes : List UInt8) : Except Completion (List UInt8) :=
  if lanes.length ≤ maxLaneCounts then
    .ok (encodeReply .pcieBifurcation (UInt8.ofNat lanes.length :: lanes))
  else
    .error .requestLengthExceeded

end SlotLanes.Ipmi
