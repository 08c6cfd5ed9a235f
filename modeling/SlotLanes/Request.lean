import SlotLanes.Event
import SlotLanes.Ipmi.Message

/-! Answering one request of the host: a command's byte and its data. -/
namespace SlotLanes.Request
open SlotLanes.Ipmi

/-- The encoded reply, or what the transport sends instead of one. -/
abbrev Reply := Except Completion (List UInt8)

def bifurcation (lanes : UInt8 → Logged (List UInt8)) (data : List UInt8) : Logged Reply :=
  match decodeBifurcationRequest data with
  | .error completion => ⟨.error completion, []⟩
  | .ok index =>
    let answer := lanes index
    match encodeBifurcationReply answer.value with
    | .ok reply => ⟨.ok reply, answer.events⟩
    | .error completion =>
      ⟨.error completion, answer.events ++ [.replyTooLong index answer.value.length]⟩

def process (lanes : UInt8 → Logged (List UInt8)) (command : UInt8) (data : List UInt8) :
    Logged Reply :=
  match Command.ofByte? command with
  | none => ⟨.error .invalidCommand, [.unknownCommand command]⟩
  | some .pcieBifurcation => bifurcation lanes data
  | some command => ⟨.error .invalidCommand, [.unhandledCommand command]⟩

end SlotLanes.Request
