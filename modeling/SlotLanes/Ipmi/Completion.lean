/-! Completion codes: what the transport sends when a request has no reply. -/
namespace SlotLanes.Ipmi

inductive Completion where
  | success
  | invalidCommand
  /-- The request is shorter than its command requires. -/
  | requestLengthInvalid
  /-- The reply would not fit the transport's buffer. -/
  | requestLengthExceeded
  | invalidField
  | unspecified
  deriving DecidableEq, Repr, Inhabited

namespace Completion

def all : List Completion :=
  [success, invalidCommand, requestLengthInvalid, requestLengthExceeded, invalidField, unspecified]

def byte : Completion → UInt8
  | success => 0x00
  | invalidCommand => 0xc1
  | requestLengthInvalid => 0xc7
  | requestLengthExceeded => 0xc8
  | invalidField => 0xcc
  | unspecified => 0xff

def name : Completion → String
  | success => "Success"
  | invalidCommand => "InvalidCommand"
  | requestLengthInvalid => "ReqDataLenInvalid"
  | requestLengthExceeded => "ReqDataLenExceeded"
  | invalidField => "InvalidFieldRequest"
  | unspecified => "UnspecifiedError"

def ofByte? (byte : UInt8) : Option Completion :=
  all.find? (·.byte == byte)

@[simp] theorem ofByte?_byte (completion : Completion) :
    ofByte? completion.byte = some completion := by
  cases completion <;> rfl

theorem ofByte?_eq_some_iff {byte : UInt8} {completion : Completion} :
    ofByte? byte = some completion ↔ completion.byte = byte :=
  ⟨fun found => by simpa using List.find?_some found, fun same => same ▸ ofByte?_byte completion⟩

end Completion
end SlotLanes.Ipmi
