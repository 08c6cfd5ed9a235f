import SlotLanes.Ipmi.Command
import SlotLanes.Table
import SlotLanes.Walk

/-! Everything the program reports beside its answers, and answers that carry what was
reported on the way to them. -/
namespace SlotLanes

inductive Event where
  | walk (notice : Notice)
  | tableFault (path name : String) (fault : Table.Fault)
  | configAbsent (path : String)
  | staticSource (path : String)
  | dynamicSource (mainBoard inventory : String)
  | unknownCommand (byte : UInt8)
  | unhandledCommand (command : Ipmi.Command)
  | replyTooLong (index : UInt8) (count : Nat)
  deriving DecidableEq, Repr

def Event.record : Event → LogRecord
  | walk notice => notice.record
  | tableFault path name fault => fault.record path name
  | configAbsent path => ⟨.info, path ++ " not found; using defaults"⟩
  | staticSource path => ⟨.debug, "static bifurcation from " ++ path⟩
  | dynamicSource mainBoard inventory =>
    ⟨.debug, "dynamic bifurcation below " ++ mainBoard ++ " from " ++ inventory⟩
  | unknownCommand byte => ⟨.debug, "unknown OEM command " ++ Text.Numeral.hexByte byte⟩
  | unhandledCommand command => ⟨.debug, "OEM command " ++ command.name ++ " not handled here"⟩
  | replyTooLong index count =>
    ⟨.warn, "bifurcation of " ++ toString index.toNat ++ " has " ++ toString count ++
      " entries; too long to reply"⟩

structure Logged (α : Type) where
  value : α
  events : List Event
  deriving DecidableEq, Repr

namespace Logged

def map (f : α → β) (logged : Logged α) : Logged β :=
  ⟨f logged.value, logged.events⟩

def bind (logged : Logged α) (next : α → Logged β) : Logged β :=
  ⟨(next logged.value).value, logged.events ++ (next logged.value).events⟩

instance : Monad Logged where
  pure value := ⟨value, []⟩
  bind := bind

end Logged
end SlotLanes
